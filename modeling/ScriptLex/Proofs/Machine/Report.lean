import ScriptLex.Diagnostic.Report
import ScriptLex.Proofs.Machine.Cursor

/-!
# Reports on machine words

Highlights are computed and carets are laid out in words of 64 bits. Any column
that has been counted in a word of 32 bits leaves room for that, so a
diagnostic can be reported without fault if its column is `Within` the source.
-/

namespace ScriptLex
namespace Machine

/-- Texts have fewer bytes than half of a size. -/
def textLimit : Nat := 2 ^ 63

def repeated (c : Char) (n : Nat) : Except Fault (List Char) :=
  if n * c.utf8Size < textLimit then .ok (List.replicate n c) else .error .overflow

def snippet (source : String) (span : Span) : Except Fault (Except LocationError Snippet) :=
  let sourceLines := Text.lines source.toList
  let named := if source.isEmpty then some [] else sourceLines[span.line - 1]?
  match named with
  | none => .ok (.error (.noSuchLine span.line (max sourceLines.length 1)))
  | some line => do
    let start := max span.column 1
    let stop ← add sizeLimit start (Snippet.width source span)
    let furthest ← add sizeLimit line.length 2
    let next ← add sizeLimit start 1
    return .ok ⟨String.ofList line, span.line, start, max (min stop furthest) next⟩

def caretLine (s : Snippet) : Except Fault String := do
  let blanks ← repeated ' ' (s.startColumn - 1)
  let carets ← repeated '^' (max (s.stopColumn - s.startColumn) 1)
  return s.gutter [] ++ String.ofList (blanks ++ carets)

def locationLines (d : Diagnostic) (source : String) : Except Fault (List String) :=
  if d.span = Span.nowhere then
    .ok []
  else do
    match ← snippet source d.span with
    | .ok s =>
      let carets ← caretLine s
      return [" --> " ++ d.span.place, s.sourceLine, carets]
    | .error _ => return [" --> " ++ d.span.place]

def report (d : Diagnostic) (source : String) : Except Fault String := do
  let location ← locationLines d source
  return Text.unlines ([d.header] ++ location ++ d.notes.map ("  = note: " ++ ·) ++
    d.helps.map ("  = help: " ++ ·))

end Machine

/-- Not beyond the end of the longest line that the source can have. -/
def Diagnostic.Within (source : List Char) (d : Diagnostic) : Prop :=
  d.span.column ≤ source.length + 1

-- ---------------------------------------------------------------------------
-- Lengths
-- ---------------------------------------------------------------------------

theorem Text.length_le_of_mem_lines {text line : List Char} (h : line ∈ Text.lines text) :
    line.length ≤ text.length := by
  fun_induction Text.lines text generalizing line with
  | case1 => contradiction
  | case2 cs ih =>
    rcases List.mem_cons.mp h with rfl | h
    · exact Nat.zero_le _
    · exact Nat.le_succ_of_le (ih h)
  | case3 cs ih =>
    rcases List.mem_cons.mp h with rfl | h
    · exact Nat.zero_le _
    · exact Nat.le_trans (ih h) (Nat.le_add_right _ 2)
  | case4 c cs _ _ hnil ih =>
    obtain rfl := List.mem_singleton.mp h
    exact Nat.succ_le_succ (Nat.zero_le _)
  | case5 c cs _ _ first more hlines ih =>
    rw [hlines] at ih
    rcases List.mem_cons.mp h with rfl | h
    · exact Nat.succ_le_succ (ih List.mem_cons_self)
    · exact Nat.le_succ_of_le (ih (List.mem_cons_of_mem _ h))

theorem Text.length_le_of_slice? {start stop : Nat} {source text : List Char}
    (h : Text.slice? start stop source = some text) : text.length ≤ source.length := by
  unfold Text.slice? at h
  split at h
  · obtain ⟨⟨before, rest⟩, hbefore, hrest⟩ := Option.bind_eq_some_iff.mp h
    obtain ⟨⟨middle, after⟩, hmiddle, rfl⟩ := Option.map_eq_some_iff.mp hrest
    have hsource := (Text.eq_of_splitAtByte? hbefore).1
    have hparts : rest = middle ++ after := (Text.eq_of_splitAtByte? hmiddle).1
    rw [hsource, hparts, List.length_append, List.length_append]
    dsimp only
    omega
  · contradiction

theorem Snippet.width_le (source : String) (span : Span) :
    Snippet.width source span ≤ max source.toList.length 1 := by
  unfold Snippet.width
  cases hslice : span.slice? source with
  | none => exact Nat.le_max_right _ 1
  | some text =>
    obtain ⟨covered, hcovered, rfl⟩ := Option.map_eq_some_iff.mp hslice
    have hlength := Text.length_le_of_slice? hcovered
    have hfirst : ((Text.lines covered).head?.getD []).length ≤ covered.length := by
      cases hlines : Text.lines covered with
      | nil => exact Nat.zero_le _
      | cons line more =>
        have hmem : line ∈ Text.lines covered := hlines ▸ List.mem_cons_self
        exact Text.length_le_of_mem_lines hmem
    dsimp only
    rw [String.toList_ofList]
    omega

-- ---------------------------------------------------------------------------
-- Reporting
-- ---------------------------------------------------------------------------

namespace Machine

theorem repeated_eq {c : Char} {n : Nat} (hc : c.utf8Size = 1) (h : n < textLimit) :
    repeated c n = .ok (List.replicate n c) := by
  rw [repeated, hc, Nat.mul_one, if_pos h]

section
variable {source : String} {span : Span} (hsize : source.toList.length < textLimit)
  (hcolumn : span.column < counterLimit)
include hsize hcolumn

theorem snippet_eq : snippet source span = .ok (Snippet.ofSource source span) := by
  have hwidth := Snippet.width_le source span
  have hlimits : counterLimit < textLimit ∧ textLimit + textLimit = sizeLimit := by decide
  unfold snippet Snippet.ofSource
  cases hnamed : if source.isEmpty then some [] else
      (Text.lines source.toList)[span.line - 1]? with
  | none => simp only [hnamed]
  | some line =>
    have hlength : line.length ≤ source.toList.length := by
      split at hnamed
      · obtain rfl := Option.some.inj hnamed
        exact Nat.zero_le _
      · exact Text.length_le_of_mem_lines (List.mem_of_getElem? hnamed)
    have hroom : 1 < counterLimit := by decide
    simp only [hnamed]
    rw [add_eq (by omega), add_eq (by omega), add_eq (by omega)]
    rfl

theorem caretLine_eq {s : Snippet} (hs : Snippet.ofSource source span = .ok s) :
    caretLine s = .ok s.caretLine := by
  have hwidth := Snippet.width_le source span
  have hlimits : 1 < counterLimit ∧ counterLimit < textLimit := by decide
  have hbounds : s.startColumn - 1 < textLimit ∧ s.stopColumn - s.startColumn < textLimit := by
    unfold Snippet.ofSource at hs
    dsimp only at hs
    split at hs
    · contradiction
    · obtain rfl := Except.ok.inj hs
      dsimp only
      omega
  rw [caretLine, repeated_eq rfl hbounds.1, repeated_eq rfl (by omega)]
  rfl

end

variable {source : String}

theorem report_eq (hsize : source.toList.length + 1 < counterLimit) {d : Diagnostic}
    (h : d.Within source.toList) : report d source = .ok (d.report source) := by
  have hlimits : counterLimit < textLimit := by decide
  have hlength : source.toList.length < textLimit := by omega
  have hcolumn : d.span.column < counterLimit := Nat.lt_of_le_of_lt h hsize
  have hlocation : locationLines d source = .ok (d.locationLines source) := by
    unfold locationLines Diagnostic.locationLines
    split
    · rfl
    · rw [snippet_eq hlength hcolumn]
      cases hs : Snippet.ofSource source d.span with
      | error e => rfl
      | ok s =>
        simp only [caretLine_eq hlength hcolumn hs, bind, Except.bind]
        rfl
  rw [report, hlocation]
  rfl

end Machine
end ScriptLex
