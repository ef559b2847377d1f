import ScriptLex.Proofs.Toml.Strings
import ScriptLex.Toml.Reader.Document

/-!
# Simple TOML documents are read back

Documents of a line each for a header, a truth value or a string. Every line is
read as the statement it was written for, also where a string takes several
lines of text, and a header with the settings below it becomes one table.
-/

namespace ScriptLex.Toml

open Reader

-- ---------------------------------------------------------------------------
-- Lines
-- ---------------------------------------------------------------------------

inductive Line where
  | gap
  | header (title : String)
  | boolean (key : String) (b : Bool)
  | string (key : String) (text : String)

namespace Line

def write : Line → String
  | gap => "\n"
  | header title => "[" ++ title ++ "]\n"
  | boolean key b => key ++ " = " ++ Writer.boolean b ++ "\n"
  | string key text => key ++ " = " ++ Writer.string text ++ "\n"

def statement : Line → Statement
  | gap => .blank
  | header title => .header ⟨[], title⟩
  | boolean key b => .assign ⟨[], key⟩ (.boolean b)
  | string key text => .assign ⟨[], key⟩ (.string text)

def statements : Line → List Statement
  | gap => []
  | line => [line.statement]

def IsBare (name : String) : Prop :=
  name ≠ "" ∧ ∀ c ∈ name.toList, isBareKeyChar c = true

instance (name : String) : Decidable (IsBare name) :=
  decidable_of_iff (name ≠ "" ∧ name.toList.all isBareKeyChar = true)
    (and_congr_right fun _ => List.all_eq_true)

def HasBareName : Line → Prop
  | gap => True
  | header title => IsBare title
  | boolean key _ => IsBare key
  | string key _ => IsBare key

end Line

theorem ne_of_isBareKeyChar (h : isBareKeyChar c = true) (hx : isBareKeyChar x = false) :
    c ≠ x := by
  rintro rfl
  rw [hx] at h
  contradiction

theorem isSpace_of_isBareKeyChar (h : isBareKeyChar c = true) : isSpace c = false := by
  simp [isSpace, ne_of_isBareKeyChar (x := ' ') h rfl, ne_of_isBareKeyChar (x := '\t') h rfl]

theorem skipSpaces_cons (h : isSpace c = false) (cs : List Char) :
    skipSpaces (c :: cs) = c :: cs := by
  simp [skipSpaces, h]

namespace Line

variable {name : String} {stop : Char}

theorem IsBare.exists_cons (h : IsBare name) :
    ∃ c cs, name.toList = c :: cs ∧ isBareKeyChar c = true := by
  obtain ⟨hne, hall⟩ := h
  cases hname : name.toList with
  | nil => exact absurd (String.toList_inj.mp hname) hne
  | cons c cs => exact ⟨c, cs, rfl, hall c (by simp [hname])⟩

theorem IsBare.skipSpaces_eq (h : IsBare name) (rest : List Char) :
    skipSpaces (name.toList ++ rest) = name.toList ++ rest := by
  obtain ⟨c, cs, hname, hc⟩ := h.exists_cons
  rw [hname, List.cons_append, skipSpaces_cons (isSpace_of_isBareKeyChar hc)]

theorem IsBare.simpleKey?_eq (h : IsBare name) (hstop : isBareKeyChar stop = false)
    (rest : List Char) :
    simpleKey? (name.toList ++ stop :: rest) = some (name, stop :: rest) := by
  have htake : (name.toList ++ stop :: rest).takeWhile isBareKeyChar = name.toList := by
    rw [List.takeWhile_append_of_pos h.2, List.takeWhile_cons_of_neg (by simp [hstop]),
      List.append_nil]
  have hdrop : (name.toList ++ stop :: rest).dropWhile isBareKeyChar = stop :: rest := by
    rw [List.dropWhile_append_of_pos h.2, List.dropWhile_cons_of_neg (by simp [hstop])]
  rw [simpleKey?]
  · simp only [htake, hdrop, String.ofList_toList]
    rw [if_neg]
    simpa using h.1
  all_goals
    obtain ⟨c, cs, hname, hc⟩ := h.exists_cons
    intro rest hrest
    rw [hname, List.cons_append] at hrest
    exact ne_of_isBareKeyChar hc rfl (List.cons.inj hrest).1

theorem IsBare.key?_eq (h : IsBare name) (hstop : isBareKeyChar stop = false)
    (hdot : (skipSpaces (stop :: rest)).head? ≠ some '.') :
    key? (name.toList ++ stop :: rest) = some (⟨[], name⟩, skipSpaces (stop :: rest)) := by
  have hnames : names? (name.toList ++ stop :: rest) =
      some ([name], skipSpaces (stop :: rest)) := by
    rw [names?, h.skipSpaces_eq, h.simpleKey?_eq hstop]
    simp only
    split
    · next hdotted => rw [hdotted] at hdot; exact absurd rfl hdot
    · rfl
  rw [key?, hnames]
  rfl

end Line

theorem exists_quote_of_string? (h : string? cs = some found) :
    ∃ quoted, cs = '\"' :: quoted ∨ cs = '\'' :: quoted := by
  unfold string? at h
  split at h
  · exact ⟨_, .inl rfl⟩
  · exact ⟨_, .inr rfl⟩
  · exact ⟨_, .inl rfl⟩
  · exact ⟨_, .inr rfl⟩
  · contradiction

theorem value?_of_string? (h : string? cs = some (found, rest)) (depth : Nat) :
    value? depth cs = some (.string (String.ofList found), rest) := by
  obtain ⟨quoted, rfl | rfl⟩ := exists_quote_of_string? h <;> rw [value?, h, Option.map_some]

theorem skipSpaces_of_string? (h : string? cs = some found) : skipSpaces cs = cs := by
  obtain ⟨quoted, rfl | rfl⟩ := exists_quote_of_string? h <;> rfl

/-- Only brackets, braces and quotes start a value that is not a run of letters and digits. -/
theorem value?_unquoted (h : isScalarChar c = true) (depth : Nat) (cs : List Char) :
    value? depth (c :: cs) = unquoted? (c :: cs) := by
  have hne {x : Char} (hx : isScalarChar x = false) (later : List Char) : c :: cs ≠ x :: later := by
    rintro he
    rw [(List.cons.inj he).1, hx] at h
    contradiction
  rw [value?]
  · exact hne rfl
  · exact hne rfl
  · exact hne rfl
  · exact hne rfl

theorem toList_boolean (b : Bool) :
    (Writer.boolean b).toList =
      if b then ['t', 'r', 'u', 'e'] else ['f', 'a', 'l', 's', 'e'] := by
  cases b <;> decide

theorem value?_boolean (b : Bool) (depth : Nat) (rest : List Char) :
    value? depth ((Writer.boolean b).toList ++ '\n' :: rest) =
      some (.boolean b, '\n' :: rest) := by
  rw [toList_boolean]
  cases b with
  | false => exact value?_unquoted rfl depth _
  | true => exact value?_unquoted rfl depth _

theorem skipSpaces_boolean (b : Bool) (rest : List Char) :
    skipSpaces ((Writer.boolean b).toList ++ rest) = (Writer.boolean b).toList ++ rest := by
  rw [toList_boolean]
  cases b <;> rfl

variable {name : String}

theorem statement?_bare (h : Line.IsBare name) (rest : List Char) :
    statement? (name.toList ++ rest) =
      (assignment? (value? (depthLimit - 1)) (name.toList ++ rest)).map fun found =>
        (.assign found.1 found.2.1, found.2.2) := by
  obtain ⟨c, cs, hname, hc⟩ := h.exists_cons
  have hbracket : c ≠ '[' := ne_of_isBareKeyChar hc rfl
  rw [statement?, h.skipSpaces_eq, hname, List.cons_append]
  split
  · next he => exact absurd (List.cons.inj he).1 hbracket
  · next he => exact absurd (List.cons.inj he).1 hbracket
  · contradiction
  · next he =>
    obtain ⟨rfl, rfl⟩ := List.cons.inj he
    rw [if_neg]
    rintro (rfl | rfl | rfl) <;> contradiction

theorem statement?_assignment (h : Line.IsBare name) (hspace : skipSpaces shown = shown)
    (hvalue : value? (depthLimit - 1) shown = some (v, rest)) :
    statement? (name.toList ++ ' ' :: '=' :: ' ' :: shown) =
      some (.assign ⟨[], name⟩ v, rest) := by
  have hkey : key? (name.toList ++ ' ' :: '=' :: ' ' :: shown) =
      some (⟨[], name⟩, '=' :: ' ' :: shown) :=
    h.key?_eq rfl (by simp [skipSpaces, isSpace])
  have hskip : skipSpaces (' ' :: shown) = shown := hspace
  rw [statement?_bare h, assignment?, hkey]
  simp only [hskip, hvalue, Option.map_some]

theorem statement?_header (h : Line.IsBare name) (rest : List Char) :
    statement? ('[' :: (name.toList ++ ']' :: rest)) = some (.header ⟨[], name⟩, rest) := by
  obtain ⟨c, cs, hname, hc⟩ := h.exists_cons
  have hbracket : c ≠ '[' := ne_of_isBareKeyChar hc rfl
  have hkey : key? (name.toList ++ ']' :: rest) = some (⟨[], name⟩, ']' :: rest) :=
    h.key?_eq rfl (by simp [skipSpaces, isSpace])
  rw [statement?, skipSpaces_cons rfl]
  split
  · next he =>
    rw [hname] at he
    exact absurd (List.cons.inj (List.cons.inj he).2).1 hbracket
  · next he =>
    obtain ⟨-, rfl⟩ := List.cons.inj he
    rw [hkey]
    rfl
  · contradiction
  · next hne he => exact absurd (List.cons.inj he).1.symm hne

namespace Line

theorem statement?_write {line : Line} (h : line.HasBareName) (rest : List Char) :
    statement? (line.write.toList ++ rest) = some (line.statement, '\n' :: rest) := by
  cases line with
  | gap => rfl
  | header title =>
    have hwrite : (header title).write.toList ++ rest =
        '[' :: (title.toList ++ ']' :: '\n' :: rest) := by
      simp [write]
    rw [hwrite, statement?_header h]
    rfl
  | boolean key b =>
    have hwrite : (boolean key b).write.toList ++ rest =
        key.toList ++ ' ' :: '=' :: ' ' :: ((Writer.boolean b).toList ++ '\n' :: rest) := by
      simp [write]
    rw [hwrite, statement?_assignment h (skipSpaces_boolean b _) (value?_boolean b _ rest)]
    rfl
  | string key text =>
    have hwrite : (string key text).write.toList ++ rest =
        key.toList ++ ' ' :: '=' :: ' ' :: ((Writer.string text).toList ++ '\n' :: rest) := by
      simp [write]
    have hread : string? ((Writer.string text).toList ++ '\n' :: rest) =
        some (text.toList, '\n' :: rest) := string?_write text (by simp) (by simp)
    rw [hwrite, statement?_assignment h (skipSpaces_of_string? hread)
      (value?_of_string? hread _), String.ofList_toList]
    rfl

theorem restOfLine?_newline (rest : List Char) : restOfLine? ('\n' :: rest) = some rest := rfl

theorem write_ne_empty (line : Line) : line.write.toList ≠ [] := by
  cases line <;> simp [write]

theorem statements?_write {line : Line} (h : line.HasBareName) (rest : List Char) :
    statements? (line.write.toList ++ rest) =
      (statements? rest).map (line.statement :: ·) := by
  have hne : line.write.toList ++ rest ≠ [] := by simp [write_ne_empty line]
  have hlength : rest.length < (line.write.toList ++ rest).length := by
    have hpos := List.length_pos_iff.mpr (write_ne_empty line)
    rw [List.length_append]
    omega
  rw [statements?.eq_2 _ hne, statement?_write h]
  simp only [restOfLine?_newline, if_pos hlength]

theorem statements?_lines {lines : List Line} (h : ∀ line ∈ lines, line.HasBareName) :
    statements? (lines.flatMap (·.write.toList)) = some (lines.map Line.statement) := by
  induction lines with
  | nil => rw [List.flatMap_nil, statements?]; rfl
  | cons line lines ih =>
    obtain ⟨hline, hlines⟩ := List.forall_mem_cons.mp h
    rw [List.flatMap_cons, statements?_write hline, ih hlines]
    rfl

theorem head?_write_ne {line : Line} (h : line.HasBareName) :
    line.write.toList.head? ≠ some '\uFEFF' := by
  have hbare {name : String} (hname : IsBare name) (rest : List Char) :
      (name.toList ++ rest).head? ≠ some '\uFEFF' := by
    obtain ⟨c, cs, hcs, hc⟩ := hname.exists_cons
    simpa [hcs] using ne_of_isBareKeyChar hc rfl
  cases line with
  | gap => decide
  | header title => simp [write]
  | boolean | string =>
    rw [write, String.toList_append, String.toList_append, String.toList_append,
      List.append_assoc, List.append_assoc]
    exact hbare h _

theorem read?_lines {lines : List Line} (h : ∀ line ∈ lines, line.HasBareName) :
    read? (String.join (lines.map write)) =
      ((lines.map Line.statement).foldlM Document.add? {}).map Document.root := by
  have htext : (String.join (lines.map write)).toList = lines.flatMap (·.write.toList) := by
    simp [String.toList_join, List.flatMap_map]
  have hmark : ∀ cs, lines.flatMap (·.write.toList) ≠ '\uFEFF' :: cs := by
    intro cs hcs
    cases lines with
    | nil => contradiction
    | cons line lines =>
      apply head?_write_ne (h line List.mem_cons_self)
      obtain ⟨c, more, hwrite⟩ := List.exists_cons_of_ne_nil (write_ne_empty line)
      rw [List.flatMap_cons, hwrite, List.cons_append] at hcs
      rw [hwrite, (List.cons.inj hcs).1]
      rfl
  rw [read?, htext]
  split
  · next he => exact absurd he (hmark _)
  · rw [statements?_lines h]
    simp only [Option.bind_eq_bind, Option.bind_some]
    cases (lines.map Line.statement).foldlM Document.add? {} <;> rfl

end Line

-- ---------------------------------------------------------------------------
-- Tables
-- ---------------------------------------------------------------------------

namespace Entries

variable {es : Entries} {key : String}

theorem put_of_get?_none (h : es.get? key = none) (v : Value) :
    es.put key v = es ++ [(key, v)] := by
  induction es with
  | nil => rfl
  | cons e es ih =>
    obtain ⟨name, old⟩ := e
    rw [get?, List.lookup_cons] at h
    split at h
    · contradiction
    · next hne =>
      rw [put, if_neg (Ne.symm (by simpa using hne)), ih h]
      rfl

theorem put_last (h : es.get? key = none) (old v : Value) :
    put (es ++ [(key, old)]) key v = es ++ [(key, v)] := by
  induction es with
  | nil => simp [put]
  | cons e es ih =>
    obtain ⟨name, other⟩ := e
    rw [get?, List.lookup_cons] at h
    split at h
    · contradiction
    · next hne =>
      rw [List.cons_append, put, if_neg (Ne.symm (by simpa using hne)), ih h]
      rfl

theorem get?_append (es more : Entries) (key : String) :
    get? (es ++ more) key = (es.get? key).or (more.get? key) :=
  List.lookup_append

theorem get?_eq_none_iff : es.get? key = none ↔ key ∉ es.map Prod.fst := by
  rw [get?, List.lookup_eq_none_iff]
  constructor
  · intro h hmem
    obtain ⟨e, he, rfl⟩ := List.mem_map.mp hmem
    simpa using h e he
  · intro h e he
    rw [bne_iff_ne]
    rintro rfl
    exact h (List.mem_map_of_mem he)

end Entries

def settings (es : Entries) : List Statement := es.map fun e => .assign ⟨[], e.1⟩ e.2

namespace Document

variable {root : Entries} {title : String}

/-- Where one new setting goes to the end of a table, many do. -/
theorem foldlM_settings {place : Entries → Document}
    (hplace : ∀ es key v, es.get? key = none →
      (place es).add? (.assign ⟨[], key⟩ v) = some (place (es ++ [(key, v)])))
    {es more : Entries} (h : ((es ++ more).map Prod.fst).Nodup) :
    (settings more).foldlM add? (place es) = some (place (es ++ more)) := by
  induction more generalizing es with
  | nil => simp [settings]
  | cons e more ih =>
    obtain ⟨key, v⟩ := e
    have hnew : es.get? key = none := by
      rw [Entries.get?_eq_none_iff]
      rw [List.map_append, List.nodup_append] at h
      intro hmem
      exact h.2.2 key hmem key (by simp) rfl
    have hnodup : ((es ++ [(key, v)] ++ more).map Prod.fst).Nodup := by simpa using h
    have hnext := ih hnodup
    rw [settings, List.map_cons, List.foldlM_cons, hplace es key v hnew]
    simpa [settings] using hnext

theorem add?_top (es : Entries) (key : String) (v : Value) (h : es.get? key = none) :
    add? ⟨es, []⟩ (.assign ⟨[], key⟩ v) = some ⟨es ++ [(key, v)], []⟩ := by
  simp [add?, Entries.below?, Entries.assign?, Entries.add?, h, Entries.put_of_get?_none h]

theorem add?_below (hroot : root.get? title = none) (es : Entries) (key : String) (v : Value)
    (h : es.get? key = none) :
    add? ⟨root ++ [(title, .table .header es)], [title]⟩ (.assign ⟨[], key⟩ v) =
      some ⟨root ++ [(title, .table .header (es ++ [(key, v)]))], [title]⟩ := by
  have htable : Entries.get? (root ++ [(title, .table .header es)]) title =
      some (.table .header es) := by
    rw [Entries.get?_append, hroot]
    simp [Entries.get?]
  simp [add?, Entries.below?, htable, Entries.assign?, Entries.add?, h,
    Entries.put_of_get?_none h, Entries.put_last hroot]

theorem add?_header (hroot : root.get? title = none) (current : List String) :
    add? ⟨root, current⟩ (.header ⟨[], title⟩) =
      some ⟨root ++ [(title, .table .header [])], [title]⟩ := by
  simp [add?, Entries.below?, Entries.openTable?, hroot, Entries.put_of_get?_none hroot]

theorem foldlM_section (hroot : root.get? title = none) {es : Entries}
    (h : (es.map Prod.fst).Nodup) (current : List String) :
    (.header ⟨[], title⟩ :: settings es).foldlM add? ⟨root, current⟩ =
      some ⟨root ++ [(title, .table .header es)], [title]⟩ := by
  rw [List.foldlM_cons, add?_header hroot]
  exact foldlM_settings (add?_below hroot) (List.nil_append es ▸ h)

theorem foldlM_lines (lines : List Line) (d : Document) :
    (lines.map Line.statement).foldlM add? d = (lines.flatMap Line.statements).foldlM add? d := by
  induction lines generalizing d with
  | nil => rfl
  | cons line lines ih =>
    cases line with
    | gap => exact ih d
    | header | boolean | string =>
      simp only [List.map_cons, List.flatMap_cons, Line.statements, List.singleton_append,
        List.foldlM_cons, ih]

end Document
end ScriptLex.Toml
