import ScriptLex.Proofs.Machine.Cursor
import ScriptLex.Proofs.Places
import ScriptLex.Proofs.Tiling

/-!
# Cursors keep in step with the text

Cursors move forward, are put aside and are taken up again. `walk_keeps_step`
tells all that a cursor holds from the text before it and the text ahead, for
the cursor of the lexer and for the one on machine words, wherever such moves
have brought them.
-/

namespace ScriptLex

-- ---------------------------------------------------------------------------
-- Moves
-- ---------------------------------------------------------------------------

/-- Passes characters as long as a predicate lets it that may remember, latest first, what it was
asked about before. -/
def Cursor.eatAsking (p : List Char → Char → Bool) (asked : List Char) (c : Cursor) : Cursor :=
  match _h : c.rest with
  | [] => c
  | ch :: _ => if p asked ch then c.advance.eatAsking p (ch :: asked) else c
termination_by c.rest.length
decreasing_by exact advance_length_lt _h

namespace Machine.Cursor

def eatAsking (p : List Char → Char → Bool) (asked : List Char) (c : Cursor) :
    Except Fault Cursor :=
  if c.atEnd || !p asked c.ch then
    .ok c
  else
    match c.advance with
    | .error f => .error f
    | .ok after =>
      if _h : after.remaining < c.remaining then after.eatAsking p (c.ch :: asked)
      else .error .stuck
termination_by c.remaining

end Machine.Cursor

inductive Motion where
  | advance
  | eatWhile (p : Char → Bool)
  | eatAsking (p : List Char → Char → Bool)

def Cursor.go (c : Cursor) : Motion → Cursor
  | .advance => c.advance
  | .eatWhile p => c.eatWhile p
  | .eatAsking p => c.eatAsking p []

def Machine.Cursor.go (c : Cursor) : Motion → Except Fault Cursor
  | .advance => c.advance
  | .eatWhile p => c.eatWhile p
  | .eatAsking p => c.eatAsking p []

inductive Move where
  | go (motion : Motion)
  | save
  | restore

structure Walk (κ : Type) where
  here : κ
  saved : List κ := []

namespace Walk

variable {κ μ : Type} {m : Type → Type} [Monad m]

def move (go : κ → Motion → m κ) (w : Walk κ) : Move → m (Walk κ)
  | .go motion => do
    let here ← go w.here motion
    return { w with here }
  | .save => return { w with saved := w.here :: w.saved }
  | .restore =>
    match w.saved with
    | [] => return w
    | here :: saved => return { here, saved }

def map (f : κ → μ) (w : Walk κ) : Walk μ := ⟨f w.here, w.saved.map f⟩

def All (P : κ → Prop) (w : Walk κ) : Prop := P w.here ∧ ∀ c ∈ w.saved, P c

end Walk

def Cursor.walk (source : String) (moves : List Move) : Walk Cursor :=
  Id.run (moves.foldlM (Walk.move Cursor.go) { here := .start source })

def Machine.walk (source : String) (moves : List Move) : Except Fault (Walk Cursor) := do
  let here ← Cursor.start source
  moves.foldlM (Walk.move Cursor.go) { here }

-- ---------------------------------------------------------------------------
-- One move
-- ---------------------------------------------------------------------------

namespace Cursor

variable {c : Cursor} {source : List Char} {motion : Motion} {w : Walk Cursor}

theorem standsIn_eatAsking (hs : c.StandsIn source) (p : List Char → Char → Bool)
    (asked : List Char) : (c.eatAsking p asked).StandsIn source := by
  fun_induction eatAsking p asked c with
  | case1 asked c hr => exact hs
  | case2 asked c ch rest hr hp ih => exact ih (standsIn_advance hs)
  | case3 asked c ch rest hr hp => exact hs

theorem standsIn_go (hs : c.StandsIn source) (motion : Motion) : (c.go motion).StandsIn source := by
  cases motion with
  | advance => exact standsIn_advance hs
  | eatWhile p => exact standsIn_eatWhile hs p
  | eatAsking p => exact standsIn_eatAsking hs p []

theorem all_move (hw : w.All (StandsIn · source)) (mv : Move) :
    (Id.run (w.move go mv)).All (StandsIn · source) := by
  obtain ⟨hhere, hsaved⟩ := hw
  cases mv with
  | go motion => exact ⟨standsIn_go hhere motion, hsaved⟩
  | save => exact ⟨hhere, List.forall_mem_cons.mpr ⟨hhere, hsaved⟩⟩
  | restore =>
    obtain ⟨here, saved⟩ := w
    cases saved with
    | nil => exact ⟨hhere, hsaved⟩
    | cons c saved => exact List.forall_mem_cons.mp hsaved

theorem eatAsking_meets (hs : c.StandsIn source) (p : List Char → Char → Bool)
    (asked : List Char) :
    Machine.Meets source ((c.image source).eatAsking p asked)
      ((c.eatAsking p asked).image source) := by
  fun_induction eatAsking p asked c with
  | case1 asked c hr =>
    have hend : (c.image source).atEnd = true := by simp [hs.atEnd_image, atEnd, hr]
    rw [Machine.Cursor.eatAsking, if_pos (by simp [hend])]
    exact .ok _
  | case2 asked c ch rest hr hp ih =>
    have hend : (c.image source).atEnd = false := by simp [hs.atEnd_image, atEnd, hr]
    have hch : (c.image source).ch = ch := by simp [image, current, hr]
    have hafter := standsIn_advance hs
    have hshorter := hs.remaining_image_lt hafter (advance_length_lt hr)
    rw [Machine.Cursor.eatAsking, if_neg (by simp [hend, hch, hp]), hch]
    rcases advance_meets hs with hok | ⟨hover, hsize⟩
    · rw [hok]
      dsimp only
      rw [dif_pos hshorter]
      exact ih hafter
    · rw [hover]
      exact .inr ⟨rfl, hsize⟩
  | case3 asked c ch rest hr hp =>
    have hch : (c.image source).ch = ch := by simp [image, current, hr]
    rw [Machine.Cursor.eatAsking, if_pos (by simp [hch, hp])]
    exact .ok _

theorem go_meets (hs : c.StandsIn source) (motion : Motion) :
    Machine.Meets source ((c.image source).go motion) ((c.go motion).image source) := by
  cases motion with
  | advance => exact advance_meets hs
  | eatWhile p => exact eatWhile_meets hs p
  | eatAsking p => exact eatAsking_meets hs p []

theorem move_meets (hw : w.All (StandsIn · source)) (mv : Move) :
    Machine.Meets source ((w.map (image source)).move Machine.Cursor.go mv)
      ((Id.run (w.move go mv)).map (image source)) := by
  cases mv with
  | go motion => exact (go_meets hw.1 motion).bind (.ok _)
  | save => exact .ok _
  | restore =>
    obtain ⟨here, saved⟩ := w
    cases saved with
    | nil => exact .ok _
    | cons c saved => exact .ok _

-- ---------------------------------------------------------------------------
-- Walks
-- ---------------------------------------------------------------------------

theorem all_moves (hw : w.All (StandsIn · source)) (moves : List Move) :
    (Id.run (moves.foldlM (Walk.move go) w)).All (StandsIn · source) := by
  induction moves generalizing w with
  | nil => exact hw
  | cons mv moves ih => exact ih (all_move hw mv)

theorem moves_meet (hw : w.All (StandsIn · source)) (moves : List Move) :
    Machine.Meets source (moves.foldlM (Walk.move Machine.Cursor.go) (w.map (image source)))
      ((Id.run (moves.foldlM (Walk.move go) w)).map (image source)) := by
  induction moves generalizing w with
  | nil => exact .ok _
  | cons mv moves ih =>
    rw [List.foldlM_cons]
    exact (move_meets hw mv).bind (ih (all_move hw mv))

theorem all_start (source : String) :
    ({ here := start source } : Walk Cursor).All (StandsIn · source.toList) :=
  ⟨standsIn_start source, List.forall_mem_nil _⟩

theorem all_walk (source : String) (moves : List Move) :
    (walk source moves).All (StandsIn · source.toList) := all_moves (all_start source) moves

theorem walk_meets (source : String) (moves : List Move) :
    Machine.Meets source.toList (Machine.walk source moves)
      ((walk source moves).map (image source.toList)) := by
  rw [Machine.walk, start_image]
  exact moves_meet (all_start source) moves

theorem walk_image {source : String} (hsize : source.length + 1 < Machine.counterLimit)
    (moves : List Move) :
    Machine.walk source moves = .ok ((walk source moves).map (image source.toList)) := by
  rw [← String.length_toList] at hsize
  exact (walk_meets source moves).eq_ok hsize

end Cursor

-- ---------------------------------------------------------------------------
-- Text before and ahead
-- ---------------------------------------------------------------------------

/-- The cursor stands between two halves of the source, and all that it holds is right. -/
structure Machine.Cursor.Between (source : String) (before after : List Char) (k : Cursor) :
    Prop where
  source_eq : k.source = source.toList
  text_eq : source.toList = before ++ after
  position_eq : k.position = Text.byteLength before
  position_le : k.position ≤ source.utf8ByteSize
  ch_of_lt : k.position < source.utf8ByteSize → after.head? = some k.ch
  ch_of_end : k.position = source.utf8ByteSize → after = [] ∧ k.ch = '\x00'
  line_eq : k.line = before.count '\n' + 1
  column_eq : k.column = (lastLine before).length + 1
  consumed_eq : k.consumed = .ok before

namespace Cursor

variable {c m : Cursor} {source text : List Char}

theorem StandsIn.between {source : String} (hs : c.StandsIn source.toList) :
    (c.image source.toList).Between source c.passed.reverse c.rest := by
  have hmark := hs.mark_eq.trans (Mark.past_origin _)
  have hbytes : source.utf8ByteSize = c.mark.offset + Text.byteLength c.rest := by
    rw [← byteLength_toList, hs.byteLength_eq]
  refine ⟨rfl, hs.text_eq.symm, hs.offset_eq, ?_, fun hlt => ?_, fun heq => ?_,
    congrArg Mark.line hmark, congrArg Mark.column hmark, consumed_image hs⟩
  · rw [hbytes]
    exact Nat.le_add_right _ _
  · cases hr : c.rest with
    | nil =>
      rw [hbytes, hr] at hlt
      exact absurd hlt (Nat.lt_irrefl _)
    | cons ch rest => simp [image, current, hr]
  · have hr : c.rest = [] := by
      by_contra hne
      have := byteLength_pos hne
      have hposition : (c.image source.toList).position = c.mark.offset := rfl
      omega
    exact ⟨hr, by simp [image, current, hr, sentinel]⟩

theorem StandsIn.exists_append (hm : m.StandsIn source) (hc : c.StandsIn source)
    (hle : m.mark.offset ≤ c.mark.offset) :
    ∃ text, c.passed.reverse = m.passed.reverse ++ text := by
  rw [hm.offset_eq, hc.offset_eq] at hle
  obtain ⟨text, htext⟩ := isPrefix_of_byteLength_le ⟨_, hm.text_eq⟩ ⟨_, hc.text_eq⟩ hle
  exact ⟨text, htext.symm⟩

theorem StandsIn.covers_spanFrom (hm : m.StandsIn source) (hc : c.StandsIn source)
    (htext : c.passed.reverse = m.passed.reverse ++ text) :
    (c.spanFrom m.mark).Covers source m.passed.reverse text c.rest := by
  refine ⟨?_, hm.offset_eq, ?_⟩
  · rw [← htext, hc.text_eq]
  · rw [← Text.byteLength_append, ← htext]
    exact hc.offset_eq

theorem StandsIn.sliceFrom?_eq (hm : m.StandsIn source) (hc : c.StandsIn source)
    (htext : c.passed.reverse = m.passed.reverse ++ text) :
    c.sliceFrom? m.mark.offset = some (String.ofList text) := by
  have hslice := Text.slice?_append m.passed.reverse text []
  rw [List.append_nil, ← Text.byteLength_append, ← htext, ← hm.offset_eq, ← hc.offset_eq] at hslice
  rw [sliceFrom?, hslice]
  rfl

end Cursor

/-- Whatever moves bring a cursor to a place, in a source of fewer than `2 ^ 32 - 1` characters
nothing overflows on the way, and all that the cursor holds is right there. Moving on passes one
whole character, or nothing at the end. The range from any mark that is not ahead lies between
characters, and cut out of the source it is what the cursor cuts out. -/
theorem walk_keeps_step (source : String) (hsize : source.length < 2 ^ 32 - 1)
    (moves : List Move) :
    let image := Cursor.image source.toList
    let c := (Cursor.walk source moves).here
    Machine.walk source moves = .ok ((Cursor.walk source moves).map image) ∧
      ∃ before after, (image c).Between source before after ∧
        c.consumed = String.ofList before ∧ c.consumed ++ String.ofList after = source ∧
        (image c).advance = .ok (image c.advance) ∧
        (after = [] → c.advance = c) ∧
        (∀ ch later, after = ch :: later →
          (image c.advance).Between source (before ++ [ch]) later) ∧
        ∀ others, let m := (Cursor.walk source others).here.mark
          m.offset ≤ (image c).position →
            ∃ earlier text, before = earlier ++ text ∧
              ((image c).spanFrom m).Covers source.toList earlier text after ∧
              m.line = earlier.count '\n' + 1 ∧ m.column = (lastLine earlier).length + 1 ∧
              c.spanFrom m = (image c).spanFrom m ∧
              (c.spanFrom m).slice? source = some (String.ofList text) ∧
              c.sliceFrom? m.offset = some (String.ofList text) ∧
              (image c).sliceFrom m.offset = .ok text := by
  intro image c
  have hs : c.StandsIn source.toList := (Cursor.all_walk source moves).1
  have hwide : source.toList.length + 1 < Machine.counterLimit := by
    rw [String.length_toList]
    exact Nat.add_lt_of_lt_sub hsize
  refine ⟨Cursor.walk_image (Nat.add_lt_of_lt_sub hsize) moves, c.passed.reverse, c.rest,
    hs.between, rfl, ?_, Cursor.advance_image hs hwide, Cursor.advance_of_end,
    fun ch later hr => ?_, fun others => ?_⟩
  · rw [Cursor.consumed, ← String.ofList_append, hs.text_eq, String.ofList_toList]
  · have hnext := (Cursor.standsIn_advance hs).between
    simpa [Cursor.advance, hr] using hnext
  · intro m hle
    have hm : (Cursor.walk source others).here.StandsIn source.toList :=
      (Cursor.all_walk source others).1
    have hmark := hm.mark_eq.trans (Mark.past_origin _)
    obtain ⟨text, htext⟩ := hm.exists_append hs hle
    have hcovers := hm.covers_spanFrom hs htext
    have hslice : (c.spanFrom m).slice? source = some (String.ofList text) := by
      rw [Span.slice?, hcovers.slice?_eq]
      rfl
    refine ⟨_, text, htext, hcovers, congrArg Mark.line hmark, congrArg Mark.column hmark, rfl,
      hslice, hm.sliceFrom?_eq hs htext, ?_⟩
    have hbytes : Text.slice? m.offset (image c).position (image c).source = some text :=
      hcovers.slice?_eq
    rw [Machine.Cursor.sliceFrom, Machine.slice, hbytes]

theorem walk_keeps_step_behind_nul :
    let source := "é\x00\nb"
    let moves : List Move :=
      [.go (.eatWhile (· != '\n')), .save, .go (.eatAsking fun asked _ => asked.length < 9),
        .restore]
    source.length < 2 ^ 32 - 1 ∧
      ∃ w, Machine.walk source moves = .ok w ∧ w.here = ⟨source.toList, 3, '\n', 1, 3⟩ ∧
        w.here.Between source ['é', '\x00'] ['\n', 'b'] ∧
        w.here.sliceFrom 2 = .ok ['\x00'] := by
  intro source moves
  have hsize : source.length < 2 ^ 32 - 1 := by decide
  have hwalk : (Cursor.walk source moves).here = ⟨['\x00', 'é'], ['\n', 'b'], ⟨3, 1, 3⟩⟩ := by
    cbv
  have hmark : (Cursor.walk source [.go .advance]).here.mark = ⟨2, 1, 2⟩ := by cbv
  obtain ⟨hruns, before, after, hbetween, hbefore, -, -, -, -, hmarks⟩ :=
    walk_keeps_step source hsize moves
  obtain rfl : before = ['é', '\x00'] := by
    have := congrArg String.toList hbefore
    simpa [hwalk, Cursor.consumed] using this.symm
  obtain rfl : after = ['\n', 'b'] :=
    List.append_cancel_left (hbetween.text_eq.symm.trans (by decide))
  obtain ⟨earlier, text, htext, hcovers, -, -, -, -, -, hslice⟩ :=
    hmarks [.go .advance] (by rw [hwalk, hmark]; decide)
  rw [hmark] at hcovers hslice
  have hcut : Text.splitAtByte? 2 ['é', '\x00'] = some (earlier, text) :=
    Text.splitAtByte?_eq_some_iff.mpr ⟨htext, hcovers.start_eq.symm⟩
  obtain ⟨rfl, rfl⟩ : ['é'] = earlier ∧ ['\x00'] = text := by
    rw [show Text.splitAtByte? 2 ['é', '\x00'] = some (['é'], ['\x00']) by rfl] at hcut
    simpa using hcut
  refine ⟨hsize, _, hruns, ?_, hbetween, hslice⟩
  rw [Walk.map, hwalk]
  rfl

end ScriptLex
