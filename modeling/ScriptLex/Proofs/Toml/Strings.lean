import ScriptLex.Toml.Reader.Text
import ScriptLex.Toml.Writer

/-!
# TOML strings are read back

Whatever form the writer takes for a text, the reader finds the text and stops
behind the closing quotes. Between triple quotes the reader looks ahead over
runs of quotes, so a run that is not yet closed is carried along: at most two
quotes, by which the writer has to abide too.
-/

namespace ScriptLex.Toml

open Reader Writer

-- ---------------------------------------------------------------------------
-- Characters
-- ---------------------------------------------------------------------------

theorem isPlain_of_not_isControl (h : isControl c = false) : isPlain c = true := by
  simp only [isControl, isPlain, Bool.or_eq_false_iff, decide_eq_false_iff_not] at *
  simp [h.2, Nat.le_of_not_lt h.1, bne]

theorem isPlain_or_newline (h : needsCode c = false) : isPlain c = true ∨ c = '\n' := by
  by_cases hn : c = '\n'
  · exact .inr hn
  · left
    by_cases ht : c = '\t'
    · rw [ht]; rfl
    · apply isPlain_of_not_isControl
      simpa [needsCode, bne, ht, hn] using h

theorem charOfHex?_control : ∀ n < 128,
    let digits := ((Nat.toDigits 16 n).map Char.toUpper).leftpad 4 '0'
    digits.length = 4 ∧ charOfHex? digits = some (Char.ofNat n) := by
  decide +kernel

theorem toNat_lt_of_isControl (h : isControl c = true) : c.toNat < 128 := by
  simp only [isControl, Bool.or_eq_true, decide_eq_true_eq, beq_iff_eq] at h
  rcases h with h | rfl
  · omega
  · decide

theorem hexEscape?_append (h : digits.length = count) (rest : List Char) :
    hexEscape? count (digits ++ rest) = (charOfHex? digits).map (·, rest) := by
  rw [hexEscape?, if_pos (by simp [h]), List.take_left' h, List.drop_left' h]

theorem escape?_code (h : isControl c = true) (rest : List Char) :
    escape? ('u' :: (((Nat.toDigits 16 c.toNat).map Char.toUpper).leftpad 4 '0' ++ rest)) =
      some (c, rest) := by
  obtain ⟨hlength, hchar⟩ := charOfHex?_control c.toNat (toNat_lt_of_isControl h)
  rw [Char.ofNat_toNat] at hchar
  rw [escape?, hexEscape?_append hlength, hchar, Option.map_some]

inductive Shows (multiline : Bool) (c : Char) : List Char → Prop where
  | plain (hplain : isPlain c = true) (hslash : c ≠ '\\') : Shows multiline c [c]
  | newline (hmultiline : multiline = true) (hc : c = '\n') : Shows multiline c [c]
  | escaped (hescape : ∀ rest, escape? (code ++ rest) = some (c, rest)) :
      Shows multiline c ('\\' :: code)

theorem shows_escape (multiline : Bool) (c : Char) : Shows multiline c (escape multiline c) := by
  unfold escape
  split
  · next h => exact .escaped (by simp [escape?, h])
  split
  · next h => exact .escaped (by simp [escape?, h])
  split
  · next h =>
    split
    · next hmultiline => subst h; exact .newline hmultiline rfl
    · exact .escaped (by simp [escape?, h])
  split
  · next h => exact .escaped (by simp [escape?, h])
  split
  · next h => exact .escaped (by simp [escape?, h])
  split
  · next h => exact .escaped (by simp [escape?, h])
  next hslash =>
  split
  · next h => exact .escaped fun rest => escape?_code h rest
  · next h => exact .plain (isPlain_of_not_isControl (by simpa using h)) hslash

-- ---------------------------------------------------------------------------
-- One line
-- ---------------------------------------------------------------------------

theorem basic?_escape (h : escape? cs = some (c, rest)) :
    basic? ('\\' :: cs) = before [c] (basic? rest) := by
  rw [basic?.eq_def]
  simp only
  split
  · next h' => rw [h] at h'; cases h'; rfl
  · next h' => rw [h] at h'; cases h'

theorem basic?_shows (h : Shows false c shown) (hc : c ≠ '\"') (rest : List Char) :
    basic? (shown ++ rest) = before [c] (basic? rest) := by
  cases h with
  | plain hplain hslash =>
    rw [List.singleton_append, basic?.eq_def]
    simp [hplain]
  | newline => contradiction
  | escaped hescape => exact basic?_escape (hescape rest)

theorem basic?_body (cs rest : List Char) (quotes : Nat) :
    basic? (body false quotes cs ++ '\"' :: rest) = some (cs, rest) := by
  induction cs generalizing quotes with
  | nil => rw [body, List.nil_append, basic?]
  | cons c cs ih =>
    rw [body]
    split
    · next hc =>
      rw [Bool.false_and, if_neg Bool.false_ne_true, List.cons_append, List.cons_append,
        basic?_escape (c := c) (by rw [hc]; rfl), ih]
      rfl
    · next hc =>
      rw [List.append_assoc, basic?_shows (shows_escape false c) hc, ih]
      rfl

theorem literal?_append (h : ∀ c ∈ cs, isPlain c = true ∧ c ≠ '\'') (rest : List Char) :
    literal? (cs ++ '\'' :: rest) = some (cs, rest) := by
  induction cs with
  | nil => rfl
  | cons c cs ih =>
    obtain ⟨⟨hplain, hc⟩, h⟩ := List.forall_mem_cons.mp h
    simp [literal?, hplain, ih h, before]

-- ---------------------------------------------------------------------------
-- Several lines
-- ---------------------------------------------------------------------------

theorem lineEnd?_of_escape? (h : escape? cs = some found) : lineEnd? (skipSpaces cs) = none := by
  unfold escape? at h
  split at h <;> first | rfl | contradiction

theorem multilineBasic?_escape (h : escape? cs = some (c, rest)) :
    multilineBasic? ('\\' :: cs) = before [c] (multilineBasic? rest) := by
  rw [multilineBasic?.eq_def]
  simp only
  split
  · next h' => rw [lineEnd?_of_escape? h] at h'; cases h'
  split
  · next h' => rw [h] at h'; cases h'; rfl
  · next h' => rw [h] at h'; cases h'

theorem replicate_append_self (n : Nat) (c : Char) (cs : List Char) :
    List.replicate n c ++ c :: cs = List.replicate (n + 1) c ++ cs := by
  rw [List.replicate_succ', List.append_assoc, List.singleton_append]

theorem before_before (cs ds : List Char) (read : Option (List Char × List Char)) :
    before cs (before ds read) = before (cs ++ ds) read := by
  cases read <;> simp [before]

/-- Up to two quotes that no third follows stand for themselves, if a quote does that has no two
behind it. -/
theorem read_quotes {read : List Char → Option (List Char × List Char)}
    (hread : ∀ rest, (∀ cs, rest ≠ quote :: quote :: cs) →
      read (quote :: rest) = before [quote] (read rest))
    (hquotes : quotes ≤ 2) (h : cs.head? ≠ some quote) :
    read (List.replicate quotes quote ++ cs) = before (List.replicate quotes quote) (read cs) := by
  have hone : read (quote :: cs) = before [quote] (read cs) := by
    apply hread
    rintro later rfl
    exact h rfl
  match quotes, hquotes with
  | 0, _ => cases hcs : read cs <;> simp [before, hcs]
  | 1, _ => exact hone
  | 2, _ =>
    have htwo : read (quote :: quote :: cs) = before [quote] (read (quote :: cs)) := by
      apply hread
      rintro later hlater
      rw [List.cons.injEq] at hlater
      exact h (by rw [hlater.2]; rfl)
    exact htwo.trans (by rw [hone, before_before]; rfl)

theorem multilineBasic?_plain (hplain : isPlain c = true) (hslash : c ≠ '\\')
    (hrun : ∀ cs, c :: rest ≠ '\"' :: '\"' :: '\"' :: cs) :
    multilineBasic? (c :: rest) = before [c] (multilineBasic? rest) := by
  rw [multilineBasic?.eq_8, if_pos hplain]
  · rintro cs rfl rfl; exact hrun _ rfl
  · rintro cs rfl rfl; exact hrun _ rfl
  · rintro cs rfl rfl; exact hrun _ rfl
  · rintro rfl; contradiction
  · rintro cs rfl; contradiction
  · exact hslash

theorem multilineBasic?_quote (rest : List Char) (h : ∀ cs, rest ≠ '\"' :: '\"' :: cs) :
    multilineBasic? ('\"' :: rest) = before ['\"'] (multilineBasic? rest) :=
  multilineBasic?_plain rfl (by decide) fun cs hcs => h cs (List.cons.inj hcs).2

theorem multilineBasic?_closing (hquotes : quotes ≤ 2) (h : rest.head? ≠ some '\"') :
    multilineBasic? (List.replicate quotes '\"' ++ ('\"' :: '\"' :: '\"' :: rest)) =
      some (List.replicate quotes '\"', rest) := by
  have hrest : ∀ cs, rest = '\"' :: cs → False := by
    rintro cs rfl
    exact h rfl
  match quotes, hquotes with
  | 0, _ => exact multilineBasic?.eq_4 rest (fun cs => hrest _) hrest
  | 1, _ => exact multilineBasic?.eq_3 rest hrest
  | 2, _ => exact multilineBasic?.eq_2 rest

theorem multilineBasic?_shows (h : Shows true c shown) (hc : c ≠ '\"') (rest : List Char) :
    multilineBasic? (shown ++ rest) = before [c] (multilineBasic? rest) := by
  cases h with
  | plain hplain hslash =>
    exact multilineBasic?_plain hplain hslash fun cs hcs => hc (List.cons.inj hcs).1
  | newline _ hnewline =>
    subst hnewline
    rw [List.singleton_append, multilineBasic?]
  | escaped hescape => exact multilineBasic?_escape (hescape rest)

theorem Shows.head?_ne (h : Shows multiline c shown) (hc : c ≠ '\"') (rest : List Char) :
    (shown ++ rest).head? ≠ some '\"' := by
  cases h <;> simp_all

/-- The quotes just before the text are not read yet, because more of them could follow. -/
theorem multilineBasic?_body (cs : List Char) (hquotes : quotes ≤ 2)
    (h : rest.head? ≠ some '\"') :
    multilineBasic? (List.replicate quotes '\"' ++
      (body true quotes cs ++ '\"' :: '\"' :: '\"' :: rest)) =
      some (List.replicate quotes '\"' ++ cs, rest) := by
  induction cs generalizing quotes with
  | nil => simpa [body] using multilineBasic?_closing hquotes h
  | cons c cs ih =>
    have hafter : multilineBasic? (body true 0 cs ++ '\"' :: '\"' :: '\"' :: rest) =
        some (cs, rest) := ih (Nat.zero_le 2)
    rw [body]
    split
    · next hc =>
      split
      · next hfew =>
        have hmore : quotes + 1 ≤ 2 := Nat.succ_le_of_lt (by simpa using hfew)
        rw [List.cons_append, replicate_append_self, ih hmore, hc, replicate_append_self]
      · rw [List.cons_append, List.cons_append, read_quotes multilineBasic?_quote hquotes (by simp),
          multilineBasic?_escape (c := c) (by rw [hc]; rfl), hafter]
        rfl
    · next hc =>
      have hshows := shows_escape true c
      rw [List.append_assoc, read_quotes multilineBasic?_quote hquotes (hshows.head?_ne hc _),
        multilineBasic?_shows hshows hc, hafter]
      rfl

theorem multilineLiteral?_plain (hplain : isPlain c = true)
    (hrun : ∀ cs, c :: rest ≠ '\'' :: '\'' :: '\'' :: cs) :
    multilineLiteral? (c :: rest) = before [c] (multilineLiteral? rest) := by
  rw [multilineLiteral?.eq_7, if_pos hplain]
  · rintro cs rfl rfl; exact hrun _ rfl
  · rintro cs rfl rfl; exact hrun _ rfl
  · rintro cs rfl rfl; exact hrun _ rfl
  · rintro rfl; contradiction
  · rintro cs rfl; contradiction

theorem multilineLiteral?_quote (rest : List Char) (h : ∀ cs, rest ≠ '\'' :: '\'' :: cs) :
    multilineLiteral? ('\'' :: rest) = before ['\''] (multilineLiteral? rest) :=
  multilineLiteral?_plain rfl fun cs hcs => h cs (List.cons.inj hcs).2

theorem multilineLiteral?_closing (hquotes : quotes ≤ 2) (h : rest.head? ≠ some '\'') :
    multilineLiteral? (List.replicate quotes '\'' ++ ('\'' :: '\'' :: '\'' :: rest)) =
      some (List.replicate quotes '\'', rest) := by
  have hrest : ∀ cs, rest = '\'' :: cs → False := by
    rintro cs rfl
    exact h rfl
  match quotes, hquotes with
  | 0, _ => exact multilineLiteral?.eq_4 rest (fun cs => hrest _) hrest
  | 1, _ => exact multilineLiteral?.eq_3 rest hrest
  | 2, _ => exact multilineLiteral?.eq_2 rest

/-- The longest run of a character, behind text with the given longest and last run. -/
def longestRunFrom (c : Char) (longest run : Nat) (cs : List Char) : Nat :=
  (cs.foldl (fun (longest, run) x =>
    if x = c then (max longest (run + 1), run + 1) else (longest, 0)) (longest, run)).1

theorem longestRunFrom_cons_self (c : Char) (longest run : Nat) (cs : List Char) :
    longestRunFrom c longest run (c :: cs) =
      longestRunFrom c (max longest (run + 1)) (run + 1) cs := by
  simp [longestRunFrom]

theorem longestRunFrom_cons_of_ne (h : x ≠ c) (longest run : Nat) (cs : List Char) :
    longestRunFrom c longest run (x :: cs) = longestRunFrom c longest 0 cs := by
  simp [longestRunFrom, h]

theorem le_longestRunFrom (c : Char) (longest run : Nat) (cs : List Char) :
    longest ≤ longestRunFrom c longest run cs := by
  induction cs generalizing longest run with
  | nil => exact Nat.le_refl _
  | cons x cs ih =>
    by_cases hx : x = c
    · subst hx
      rw [longestRunFrom_cons_self]
      exact Nat.le_trans (Nat.le_max_left ..) (ih ..)
    · rw [longestRunFrom_cons_of_ne hx]
      exact ih longest 0

theorem run_lt_longestRunFrom (c : Char) (longest run : Nat) (cs : List Char) :
    run < longestRunFrom c longest run (c :: cs) := by
  rw [longestRunFrom_cons_self]
  exact Nat.lt_of_lt_of_le (Nat.lt_succ_self run)
    (Nat.le_trans (Nat.le_max_right ..) (le_longestRunFrom ..))

theorem notMem_of_longestRunFrom (h : longestRunFrom c longest run cs = 0) : c ∉ cs := by
  induction cs generalizing longest run with
  | nil => exact List.not_mem_nil
  | cons x cs ih =>
    by_cases hx : x = c
    · subst hx
      have hlt := run_lt_longestRunFrom x longest run cs
      rw [h] at hlt
      exact absurd hlt (Nat.not_lt_zero run)
    · rw [longestRunFrom_cons_of_ne hx] at h
      simp [ih h, Ne.symm hx]

theorem multilineLiteral?_runs (hruns : longestRunFrom '\'' longest quotes cs ≤ 2)
    (hquotes : quotes ≤ 2) (hplain : ∀ c ∈ cs, isPlain c = true ∨ c = '\n')
    (h : rest.head? ≠ some '\'') :
    multilineLiteral? (List.replicate quotes '\'' ++ (cs ++ '\'' :: '\'' :: '\'' :: rest)) =
      some (List.replicate quotes '\'' ++ cs, rest) := by
  induction cs generalizing longest quotes with
  | nil => simpa using multilineLiteral?_closing hquotes h
  | cons c cs ih =>
    obtain ⟨hc, hlater⟩ := List.forall_mem_cons.mp hplain
    by_cases hquote : c = '\''
    · subst hquote
      have hmore : quotes + 1 ≤ 2 := Nat.le_trans (run_lt_longestRunFrom ..) hruns
      rw [longestRunFrom_cons_self] at hruns
      rw [List.cons_append, replicate_append_self, ih hruns hmore hlater, replicate_append_self]
    · rw [longestRunFrom_cons_of_ne hquote] at hruns
      have hafter : multilineLiteral? (cs ++ '\'' :: '\'' :: '\'' :: rest) = some (cs, rest) :=
        ih hruns (Nat.zero_le 2) hlater
      have hstep (ds : List Char) :
          multilineLiteral? (c :: ds) = before [c] (multilineLiteral? ds) := by
        rcases hc with hc | rfl
        · exact multilineLiteral?_plain hc fun cs hcs => hquote (List.cons.inj hcs).1
        · rw [multilineLiteral?]
      rw [List.cons_append, read_quotes multilineLiteral?_quote hquotes (by simpa using hquote),
        hstep, hafter]
      rfl

-- ---------------------------------------------------------------------------
-- Any form
-- ---------------------------------------------------------------------------

theorem form_literal (h : form cs = .literal) : ∀ c ∈ cs, isPlain c = true ∧ c ≠ '\'' := by
  simp only [form] at h
  split at h
  · contradiction
  split at h
  · next hcond =>
    simp only [Bool.and_eq_true, Bool.not_eq_true', List.any_eq_false, Bool.not_eq_true,
      beq_iff_eq, List.contains_eq_mem, decide_eq_false_iff_not] at hcond
    obtain ⟨⟨hcodes, hsingle⟩, hnewline⟩ := hcond
    intro c hc
    refine ⟨(isPlain_or_newline (hcodes c hc)).resolve_right ?_, ?_⟩
    · rintro rfl
      exact hnewline hc
    · rintro rfl
      exact notMem_of_longestRunFrom hsingle hc
  repeat' split at h
  all_goals contradiction

theorem form_multilineLiteral (h : form cs = .multilineLiteral) :
    (∀ c ∈ cs, isPlain c = true ∨ c = '\n') ∧ longestRun '\'' cs ≤ 2 := by
  simp only [form] at h
  split at h
  · contradiction
  split at h
  · contradiction
  split at h
  · contradiction
  split at h
  · next hcond =>
    simp only [Bool.and_eq_true, Bool.not_eq_true', List.any_eq_false, Bool.not_eq_true,
      decide_eq_true_eq] at hcond
    exact ⟨fun c hc => isPlain_or_newline (hcond.1 c hc), hcond.2⟩
  · split at h <;> contradiction

/-- The line end that the writer puts first is the one that the reader drops. -/
theorem skipFirstLineEnd_opening (h : '\n' ∉ cs → lineEnd? shown = none) :
    skipFirstLineEnd (opening cs ++ shown) = shown := by
  by_cases hnewline : '\n' ∈ cs
  · simp [opening, hnewline, skipFirstLineEnd, lineEnd?]
  · simp [opening, hnewline, skipFirstLineEnd, h hnewline]

theorem lineEnd?_plain (h : isPlain c = true) (rest : List Char) :
    lineEnd? (c :: rest) = none := by
  unfold lineEnd?
  split <;> simp_all [isPlain]

theorem lineEnd?_body (h : '\n' ∉ cs) (rest : List Char) :
    lineEnd? (body true 0 cs ++ '\"' :: rest) = none := by
  cases cs with
  | nil => rfl
  | cons c cs =>
    rw [body]
    split
    · rfl
    · rw [List.append_assoc]
      generalize hshown : escape true c = shown
      cases hshown ▸ shows_escape true c with
      | plain hplain => exact lineEnd?_plain hplain _
      | newline _ hc => simp [hc] at h
      | escaped => rfl

theorem string?_basic (h : ∀ rest, cs ≠ '\"' :: '\"' :: rest) :
    string? ('\"' :: cs) = basic? cs := by
  rw [string?]
  rintro rest rfl
  exact h rest rfl

theorem string?_literal (h : ∀ rest, cs ≠ '\'' :: '\'' :: rest) :
    string? ('\'' :: cs) = literal? cs := by
  rw [string?]
  rintro rest rfl
  exact h rest rfl

/-- Only the empty text in double quotes looks like the start of triple quotes. -/
theorem body_not_quotes (hdouble : rest.head? ≠ some '\"') (later : List Char) :
    body false 0 cs ++ '\"' :: rest ≠ '\"' :: '\"' :: later := by
  cases cs with
  | nil =>
    intro h
    exact hdouble (by rw [(List.cons.inj h).2]; rfl)
  | cons c cs =>
    intro h
    have hhead := congrArg List.head? h
    rw [body] at hhead
    split at hhead
    · simp at hhead
    · next hc =>
      rw [List.append_assoc] at hhead
      exact (shows_escape false c).head?_ne hc _ hhead

/-- What is written as a string is read back, and nothing behind it is touched. -/
theorem string?_write (text : String) (hdouble : rest.head? ≠ some '\"')
    (hsingle : rest.head? ≠ some '\'') :
    string? ((Writer.string text).toList ++ rest) = some (text.toList, rest) := by
  rw [Writer.string, String.toList_ofList]
  cases hform : form text.toList
  all_goals simp only [List.append_assoc, List.cons_append, List.nil_append]
  case basic => rw [string?_basic (body_not_quotes hdouble), basic?_body]
  case literal =>
    have hplain := form_literal hform
    rw [string?_literal, literal?_append hplain]
    intro later h
    cases hcs : text.toList with
    | nil =>
      rw [hcs] at hform
      contradiction
    | cons c cs =>
      rw [hcs] at h hplain
      exact (hplain c List.mem_cons_self).2 (List.cons.inj h).1
  case multilineBasic =>
    rw [string?, skipFirstLineEnd_opening fun h => lineEnd?_body h _]
    exact multilineBasic?_body text.toList (Nat.zero_le 2) hdouble
  case multilineLiteral =>
    obtain ⟨hplain, hruns⟩ := form_multilineLiteral hform
    rw [string?, skipFirstLineEnd_opening]
    · exact multilineLiteral?_runs hruns (Nat.zero_le 2) hplain hsingle
    · intro hnewline
      cases hcs : text.toList with
      | nil => rfl
      | cons c cs =>
        rw [hcs] at hplain hnewline
        have hc := (hplain c List.mem_cons_self).resolve_right fun h => by simp [h] at hnewline
        exact lineEnd?_plain hc _

end ScriptLex.Toml
