import ScriptLex.Command.Config
import ScriptLex.Proofs.Precedence
import ScriptLex.Proofs.Settings
import ScriptLex.Proofs.Toml.Documents

/-!
# The configuration is loaded as it was written

Whatever texts a configuration holds, the document that is printed for it is
the one that is saved, and loading the document gives the configuration back.
Parts that are cut out of the document have their defaults when it is loaded.
-/

namespace ScriptLex
namespace Config

open Toml

-- ---------------------------------------------------------------------------
-- Parts of the document
-- ---------------------------------------------------------------------------

inductive Part where
  | verbose
  | gapAboveLex
  | lex
  | mode
  | emitEnd
  | gapAboveOutput
  | output
  | format
deriving DecidableEq

def Part.all : List Part :=
  [.verbose, .gapAboveLex, .lex, .mode, .emitEnd, .gapAboveOutput, .output, .format]

def line (c : Config) : Part → Line
  | .verbose => .boolean "verbose" c.verbose
  | .gapAboveLex | .gapAboveOutput => .gap
  | .lex => .header "lex"
  | .mode => .string "mode" c.mode
  | .emitEnd => .boolean "emit_eof" c.emitEnd
  | .output => .header "output"
  | .format => .string "format" c.format

/-- The written configuration without the parts that are not kept. -/
def excerpt (c : Config) (keeps : Part → Bool) : String :=
  String.join ((Part.all.filter keeps).map fun part => (c.line part).write)

structure KeepsHeaders (keeps : Part → Bool) : Prop where
  mode : keeps .mode = true → keeps .lex = true
  emitEnd : keeps .emitEnd = true → keeps .lex = true
  format : keeps .format = true → keeps .output = true

/-- The configuration with defaults for what is not kept. -/
def restricted (c : Config) (keeps : Part → Bool) : Config :=
  let d : Config := {}
  { verbose := if keeps .verbose then c.verbose else d.verbose
    mode := if keeps .mode then c.mode else d.mode
    emitEnd := if keeps .emitEnd then c.emitEnd else d.emitEnd
    format := if keeps .format then c.format else d.format }

theorem write_eq_excerpt (c : Config) : c.write = c.excerpt fun _ => true := by
  have hall : Part.all.filter (fun _ => true) = Part.all := rfl
  rw [excerpt, hall]
  -- The same text, with its fixed pieces cut where the lines end.
  change "verbose" ++ " = " ++ Writer.boolean c.verbose ++
    ("\n" ++ ("\n" ++ ("[" ++ "lex" ++ "]\n" ++ ("mode" ++ " = ")))) ++ Writer.string c.mode ++
    ("\n" ++ ("emit_eof" ++ " = ")) ++ Writer.boolean c.emitEnd ++
    ("\n" ++ ("\n" ++ ("[" ++ "output" ++ "]\n" ++ ("format" ++ " = ")))) ++
    Writer.string c.format ++ "\n" = _
  simp only [Part.all, line, Line.write, List.map_cons, List.map_nil, String.join_cons,
    String.join_nil, String.append_assoc, String.append_empty]

theorem restricted_all (c : Config) : (c.restricted fun _ => true) = c := rfl

theorem hasBareName_line (c : Config) (part : Part) : (c.line part).HasBareName := by
  cases part with
  | gapAboveLex | gapAboveOutput => trivial
  | verbose => exact (by decide +kernel : Line.IsBare "verbose")
  | lex => exact (by decide +kernel : Line.IsBare "lex")
  | mode => exact (by decide +kernel : Line.IsBare "mode")
  | emitEnd => exact (by decide +kernel : Line.IsBare "emit_eof")
  | output => exact (by decide +kernel : Line.IsBare "output")
  | format => exact (by decide +kernel : Line.IsBare "format")

-- ---------------------------------------------------------------------------
-- Reading
-- ---------------------------------------------------------------------------

def setting (c : Config) : Part → Entries
  | .verbose => [("verbose", .boolean c.verbose)]
  | .mode => [("mode", .string c.mode)]
  | .emitEnd => [("emit_eof", .boolean c.emitEnd)]
  | .format => [("format", .string c.format)]
  | .gapAboveLex | .lex | .gapAboveOutput | .output => []

variable {c : Config} {keeps : Part → Bool} {parts : List Part} {title : String} {header : Part}

def kept (c : Config) (keeps : Part → Bool) (parts : List Part) : Entries :=
  (parts.filter keeps).flatMap c.setting

def keptSection (c : Config) (keeps : Part → Bool) (title : String) (header : Part)
    (parts : List Part) : Entries :=
  if keeps header then [(title, .table .header (c.kept keeps parts))] else []

def entries (c : Config) (keeps : Part → Bool) : Entries :=
  c.kept keeps [.verbose, .gapAboveLex] ++
    c.keptSection keeps "lex" .lex [.mode, .emitEnd, .gapAboveOutput] ++
    c.keptSection keeps "output" .output [.format]

theorem kept_cons (c : Config) (keeps : Part → Bool) (part : Part) (parts : List Part) :
    c.kept keeps (part :: parts) =
      (if keeps part then c.setting part else []) ++ c.kept keeps parts := by
  rw [kept, List.filter_cons]
  split <;> simp [kept]

theorem kept_nil (c : Config) (keeps : Part → Bool) : c.kept keeps [] = [] := rfl

theorem kept_sublist (c : Config) (keeps : Part → Bool) (parts : List Part) :
    (c.kept keeps parts).Sublist (parts.flatMap c.setting) := by
  induction parts with
  | nil => exact .slnil
  | cons part parts ih =>
    rw [kept_cons, List.flatMap_cons]
    split
    · exact ih.append_left _
    · exact ih.trans (List.sublist_append_right ..)

theorem nodup_kept (h : ((parts.flatMap c.setting).map Prod.fst).Nodup) :
    ((c.kept keeps parts).map Prod.fst).Nodup :=
  List.Nodup.sublist ((c.kept_sublist keeps parts).map _) h

theorem get?_kept_eq_none (h : key ∉ (parts.flatMap c.setting).map Prod.fst) :
    (c.kept keeps parts).get? key = none :=
  Entries.get?_eq_none_iff.mpr fun hkey => h (((c.kept_sublist keeps parts).map _).subset hkey)

theorem get?_keptSection (c : Config) (keeps : Part → Bool) (title : String) (header : Part)
    (parts : List Part) (key : String) :
    (c.keptSection keeps title header parts).get? key =
      if key = title ∧ keeps header then some (.table .header (c.kept keeps parts)) else none := by
  rw [keptSection]
  split
  · next h =>
    by_cases hkey : key = title
    · simp [Entries.get?, hkey, h]
    · simp [Entries.get?, List.lookup_cons, beq_eq_false_iff_ne.mpr hkey, hkey]
  · next h => simp [Entries.get?, h]

def statements (c : Config) (keeps : Part → Bool) (parts : List Part) : List Statement :=
  (parts.filter keeps).flatMap fun part => (c.line part).statements

theorem statements_eq_settings (h : Part.lex ∉ parts ∧ Part.output ∉ parts) :
    c.statements keeps parts = settings (c.kept keeps parts) := by
  rw [statements, settings, kept, List.map_flatMap]
  apply List.flatMap_congr
  intro part hpart
  have hmem := (List.mem_filter.mp hpart).1
  cases part with
  | lex => exact absurd hmem h.1
  | output => exact absurd hmem h.2
  | _ => rfl

theorem statements_append (c : Config) (keeps : Part → Bool) (parts more : List Part) :
    c.statements keeps (parts ++ more) = c.statements keeps parts ++ c.statements keeps more := by
  rw [statements, List.filter_append, List.flatMap_append, ← statements, ← statements]

/-- A section that is kept becomes the last table. Of a section that is not kept, no key is. -/
theorem foldlM_section (c : Config) (title : String) (header : Part)
    (hheader : (c.line header).statements = [.header ⟨[], title⟩])
    (hparts : Part.lex ∉ parts ∧ Part.output ∉ parts)
    (hkeeps : keeps header = false → c.kept keeps parts = [])
    (hnodup : ((c.kept keeps parts).map Prod.fst).Nodup) (hroot : root.get? title = none)
    (current : List String) :
    ∃ current', (c.statements keeps (header :: parts)).foldlM Document.add? ⟨root, current⟩ =
      some ⟨root ++ c.keptSection keeps title header parts, current'⟩ := by
  cases hkept : keeps header with
  | false =>
    refine ⟨current, ?_⟩
    have hnothing : c.statements keeps (header :: parts) = [] := by
      rw [statements, List.filter_cons_of_neg (by simp [hkept]), ← statements,
        statements_eq_settings hparts, hkeeps hkept]
      rfl
    simp [hnothing, keptSection, hkept]
  | true =>
    refine ⟨[title], ?_⟩
    have hsection : c.statements keeps (header :: parts) =
        .header ⟨[], title⟩ :: settings (c.kept keeps parts) := by
      rw [statements, List.filter_cons_of_pos hkept, List.flatMap_cons, hheader, ← statements,
        statements_eq_settings hparts]
      rfl
    rw [hsection, Document.foldlM_section hroot hnodup, keptSection, if_pos hkept]

theorem foldlM_all (c : Config) (h : KeepsHeaders keeps) :
    ∃ current, (c.statements keeps Part.all).foldlM Document.add? {} =
      some ⟨c.entries keeps, current⟩ := by
  have hall : Part.all = [.verbose, .gapAboveLex] ++
      (.lex :: [.mode, .emitEnd, .gapAboveOutput] ++ .output :: [.format]) := rfl
  have htop : (c.statements keeps [.verbose, .gapAboveLex]).foldlM Document.add? {} =
      some ⟨c.kept keeps [.verbose, .gapAboveLex], []⟩ := by
    rw [statements_eq_settings (by decide)]
    exact Document.foldlM_settings Document.add?_top (nodup_kept (by simp [setting]))
  have hlexKeys : keeps .lex = false → c.kept keeps [.mode, .emitEnd, .gapAboveOutput] = [] := by
    intro hlex
    have hmode := mt h.mode (by simp [hlex])
    have hemit := mt h.emitEnd (by simp [hlex])
    simp [kept_cons, kept_nil, hmode, hemit, setting]
  have houtputKeys : keeps .output = false → c.kept keeps [.format] = [] := by
    intro houtput
    have hformat := mt h.format (by simp [houtput])
    simp [kept_cons, kept_nil, hformat]
  have hnoLex : (c.kept keeps [.verbose, .gapAboveLex]).get? "lex" = none :=
    get?_kept_eq_none (by simp [setting])
  have hnoOutput : Entries.get? (c.kept keeps [.verbose, .gapAboveLex] ++
      c.keptSection keeps "lex" .lex [.mode, .emitEnd, .gapAboveOutput]) "output" = none := by
    rw [Entries.get?_append, get?_kept_eq_none (by simp [setting]), get?_keptSection]
    rfl
  obtain ⟨afterLex, hlex⟩ := c.foldlM_section "lex" .lex rfl (by decide) hlexKeys
    (nodup_kept (by simp [setting])) hnoLex []
  obtain ⟨afterOutput, houtput⟩ := c.foldlM_section "output" .output rfl (by decide)
    houtputKeys (nodup_kept (by simp [setting])) hnoOutput afterLex
  refine ⟨afterOutput, ?_⟩
  rw [hall, statements_append, statements_append, List.foldlM_append, htop]
  simp only [Option.bind_eq_bind, Option.bind_some]
  rw [List.foldlM_append, hlex]
  exact houtput

theorem read?_excerpt (c : Config) (h : KeepsHeaders keeps) :
    Toml.read? (c.excerpt keeps) = some (c.entries keeps) := by
  obtain ⟨current, hfold⟩ := c.foldlM_all h
  have htext : c.excerpt keeps =
      String.join (((Part.all.filter keeps).map c.line).map Line.write) := by
    rw [excerpt, List.map_map]
    rfl
  have hbare : ∀ line ∈ (Part.all.filter keeps).map c.line, line.HasBareName := by
    intro line hline
    obtain ⟨part, -, rfl⟩ := List.mem_map.mp hline
    exact c.hasBareName_line part
  rw [htext, Line.read?_lines hbare, Document.foldlM_lines, List.flatMap_map]
  rw [statements] at hfold
  rw [hfold]
  rfl

theorem boolean?_if (default b : Bool) (present : Bool) :
    boolean? default (if present then some (.boolean b) else none) =
      some (if present then b else default) := by
  cases present <;> rfl

theorem string?_if (default text : String) (present : Bool) :
    string? default (if present then some (.string text) else none) =
      some (if present then text else default) := by
  cases present <;> rfl

theorem get?_verbose (c : Config) (keeps : Part → Bool) :
    (c.entries keeps).get? "verbose" =
      if keeps .verbose then some (.boolean c.verbose) else none := by
  rw [entries, Entries.get?_append, Entries.get?_append, get?_keptSection, get?_keptSection]
  cases hkept : keeps .verbose <;> simp [kept_cons, kept_nil, hkept, setting, Entries.get?]

theorem get?_lex (c : Config) (keeps : Part → Bool) :
    (c.entries keeps).get? "lex" =
      if keeps .lex then some (.table .header (c.kept keeps [.mode, .emitEnd, .gapAboveOutput]))
      else none := by
  rw [entries, Entries.get?_append, Entries.get?_append, get?_keptSection, get?_keptSection,
    get?_kept_eq_none (by simp [setting])]
  simp

theorem get?_output (c : Config) (keeps : Part → Bool) :
    (c.entries keeps).get? "output" =
      if keeps .output then some (.table .header (c.kept keeps [.format])) else none := by
  rw [entries, Entries.get?_append, Entries.get?_append, get?_keptSection, get?_keptSection,
    get?_kept_eq_none (by simp [setting])]
  simp

theorem sectionField?_kept {root es : Entries}
    (hroot : root.get? title = if keeps header then some (.table .header es) else none)
    (hname : es.get? name = if keeps part then some v else none)
    (hheader : keeps part = true → keeps header = true) (index : Nat) :
    sectionField? root title name index = some (if keeps part then some v else none) := by
  rw [sectionField?, hroot]
  cases hkept : keeps header with
  | false =>
    have hpart := mt hheader (by simp [hkept])
    simp [hpart]
  | true => simp [field?, hname]

theorem ofEntries?_entries (c : Config) (h : KeepsHeaders keeps) :
    ofEntries? (c.entries keeps) = some (c.restricted keeps) := by
  have hmode : sectionField? (c.entries keeps) "lex" "mode" 0 =
      some (if keeps .mode then some (.string c.mode) else none) := by
    refine sectionField?_kept (c.get?_lex keeps) ?_ h.mode 0
    cases hkept : keeps .mode <;> cases hnext : keeps .emitEnd <;>
      simp [kept_cons, kept_nil, hkept, hnext, setting, Entries.get?]
  have hemit : sectionField? (c.entries keeps) "lex" "emit_eof" 1 =
      some (if keeps .emitEnd then some (.boolean c.emitEnd) else none) := by
    refine sectionField?_kept (c.get?_lex keeps) ?_ h.emitEnd 1
    cases hkept : keeps .emitEnd <;> cases hfirst : keeps .mode <;>
      simp [kept_cons, kept_nil, hkept, hfirst, setting, Entries.get?, List.lookup_cons]
  have hformat : sectionField? (c.entries keeps) "output" "format" 0 =
      some (if keeps .format then some (.string c.format) else none) := by
    refine sectionField?_kept (c.get?_output keeps) ?_ h.format 0
    cases hkept : keeps .format <;> simp [kept_cons, kept_nil, hkept, setting, Entries.get?]
  rw [ofEntries?]
  simp only [get?_verbose, hmode, hemit, hformat, boolean?_if, string?_if, Option.bind_eq_bind,
    Option.bind_some]
  rfl

/-- What is kept of a written configuration is read back, with defaults for the rest. -/
theorem parse?_excerpt (c : Config) (h : KeepsHeaders keeps) :
    parse? (c.excerpt keeps) = some (c.restricted keeps) := by
  rw [parse?, c.read?_excerpt h, Option.bind_some, c.ofEntries?_entries h]

theorem parse?_write (c : Config) : parse? c.write = some c := by
  have hheaders : KeepsHeaders fun _ => true := ⟨fun _ => rfl, fun _ => rfl, fun _ => rfl⟩
  rw [write_eq_excerpt, c.parse?_excerpt hheaders, restricted_all]

end Config

-- ---------------------------------------------------------------------------
-- The command
-- ---------------------------------------------------------------------------

namespace ConfigCommand

variable {config : Config} {tree : FileTree}

theorem run_print (config : Config) (tree : FileTree) :
    (run (m := StateM FileTree) {} config).run tree = (⟨.ok (), config.write, []⟩, tree) := by
  have hsteps : (steps (m := StateM FileTree) {} config).carriedOut {} tree =
      ((.ok (), ⟨"" ++ config.write, []⟩), tree) := rfl
  rw [String.empty_append] at hsteps
  exact CommandM.run_execute hsteps

theorem run_write
    (hsave : (config.save (m := StateM FileTree) path).run tree = (.ok (), after)) :
    (run (m := StateM FileTree) { writeTo? := some path } config).run tree =
      (⟨.ok (), "", [wrote path]⟩, after) := by
  apply CommandM.run_execute
  rw [steps, CommandM.carriedOut_bind_ok (CommandM.carriedOut_liftM hsave {})]
  rfl

theorem run_write_error
    (hsave : (config.save (m := StateM FileTree) path).run tree = (.error cause, after)) :
    (run (m := StateM FileTree) { writeTo? := some path } config).run tree =
      (⟨.error (.file cause), "", []⟩, after) := by
  apply CommandM.run_execute
  rw [steps, CommandM.carriedOut_bind_ok (CommandM.carriedOut_liftM hsave {})]
  rfl

/-- Where the path can be written the document is there afterwards, and nowhere else does the
command end well. It never prints anything. -/
theorem run_writeTo (config : Config) (tree : FileTree) (path : String) :
    ∃ x after,
      (run (m := StateM FileTree) { writeTo? := some path } config).run tree = (x, after) ∧
        x.written = "" ∧ (x.result = .ok () ↔ FileAccess.Writable tree path) ∧
        (x.result = .ok () → after.readText path = .ok config.write) := by
  rcases hsave : (config.save (m := StateM FileTree) path).run tree with ⟨result, after⟩
  cases result with
  | ok =>
    have hwritable := FileAccess.writable_of_save hsave
    refine ⟨_, after, run_write hsave, rfl, iff_of_true rfl hwritable, fun _ => ?_⟩
    obtain ⟨after', hafter, hread⟩ := hwritable.run_save config.write
    rw [← Config.save, hsave] at hafter
    cases hafter
    exact hread
  | error cause =>
    refine ⟨_, after, run_write_error hsave, rfl, iff_of_false nofun fun hwritable => ?_, nofun⟩
    obtain ⟨after', hafter, -⟩ := hwritable.run_save config.write
    rw [← Config.save, hsave] at hafter
    cases hafter

/-- The document that is printed is the one that is written to a file, and the file loads as the
configuration that was written. A document that lacks some of its keys or sections loads with the
defaults for these. -/
theorem run_round_trips (config : Config) (tree : FileTree) :
    (run (m := StateM FileTree) {} config).run tree = (⟨.ok (), config.write, []⟩, tree) ∧
      (∀ path, ∃ x after,
        (run (m := StateM FileTree) { writeTo? := some path } config).run tree = (x, after) ∧
          x.written = "" ∧ (x.result = .ok () ↔ FileAccess.Writable tree path) ∧
          (x.result = .ok () → after.readText path = .ok config.write ∧
            (Config.loadFrom (m := StateM FileTree) path).run after = (.ok config, after))) ∧
      config.write = config.excerpt (fun _ => true) ∧
      ∀ keeps path, Config.KeepsHeaders keeps →
        tree.readText path = .ok (config.excerpt keeps) →
        (Config.loadFrom (m := StateM FileTree) path).run tree =
          (.ok (config.restricted keeps), tree) := by
  refine ⟨run_print config tree, fun path => ?_, config.write_eq_excerpt,
    fun keeps path hkeeps hread => Config.run_loadFrom hread (config.parse?_excerpt hkeeps)⟩
  obtain ⟨x, after, hrun, hwritten, hwritable, hread⟩ := run_writeTo config tree path
  refine ⟨x, after, hrun, hwritten, hwritable, fun hok => ⟨hread hok, ?_⟩⟩
  exact Config.run_loadFrom (hread hok) config.parse?_write

theorem run_round_trips_awkward_texts :
    let config : Config :=
      { verbose := true, mode := "\n\r'''\"\"\"\\\t\x7f", format := "''\"\"\"" }
    let keeps : Config.Part → Bool := fun part =>
      part matches .gapAboveLex | .lex | .emitEnd | .output | .format
    let tree : FileTree :=
      { root := .directory [("b", .file (.text (config.excerpt keeps)))] }
    (∃ x after,
      (run (m := StateM FileTree) { writeTo? := some "a/./new/c.toml" } config).run tree =
        (x, after) ∧ x.result = .ok () ∧ x.written = "" ∧
        (Config.loadFrom (m := StateM FileTree) "a/./new/c.toml").run after =
          (.ok config, after)) ∧
    (Config.loadFrom (m := StateM FileTree) "b").run tree =
      (.ok { format := config.format }, tree) := by
  intro config keeps tree
  obtain ⟨-, hwrites, -, hloads⟩ := run_round_trips config tree
  constructor
  · obtain ⟨x, after, hrun, hwritten, hwritable, hread⟩ := hwrites "a/./new/c.toml"
    have hsaved :
        ((config.save (m := StateM FileTree) "a/./new/c.toml").run tree).1 = .ok () := by
      decide +kernel
    have hok := hwritable.mpr (FileAccess.writable_of_save (Prod.ext hsaved rfl))
    exact ⟨x, after, hrun, hok, hwritten, (hread hok).2⟩
  · exact hloads keeps "b" ⟨nofun, fun _ => rfl, fun _ => rfl⟩ (by decide +kernel)

end ConfigCommand
end ScriptLex
