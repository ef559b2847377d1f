import Mathlib
import ScriptLex.Lexer.Session
import ScriptLex.Proofs.Passing

/-!
# Cursors on machine words

A cursor as a machine keeps it: the bytes of the source, an offset into them,
counters of fixed width, and the character at the offset, decoded ahead of its
use. Arithmetic that leaves a word, a cut inside a character and a loop without
progress are faults. In a source of fewer than `2 ^ 32 - 1` characters there are
none, and the cursor is the image of the cursor between two halves of the text.
In longer sources a counter may overflow, and nothing else goes wrong.
-/

namespace ScriptLex.Machine

-- ---------------------------------------------------------------------------
-- Words and bytes
-- ---------------------------------------------------------------------------

inductive Fault where
  | overflow
  /-- The offsets are no places between two characters, in this order. -/
  | badSlice (start stop : Nat)
  | assertion (m : Misuse)
  | noSuchToken (e : TokenError)
  /-- A loop that would never end. -/
  | stuck
deriving DecidableEq, Repr

/-- Lines and columns are counted in words of 32 bits. -/
def counterLimit : Nat := 2 ^ 32

/-- Offsets and sizes are words of 64 bits. -/
def sizeLimit : Nat := 2 ^ 64

def add (limit a b : Nat) : Except Fault Nat :=
  if a + b < limit then .ok (a + b) else .error .overflow

def sub (a b : Nat) : Except Fault Nat := if b ≤ a then .ok (a - b) else .error .overflow

theorem add_eq (h : a + b < limit) : add limit a b = .ok (a + b) := if_pos h

theorem sub_eq (h : b ≤ a) : sub a b = .ok (a - b) := if_pos h

def bytes (source : List Char) : List UInt8 := source.flatMap String.utf8EncodeChar

def slice (source : List Char) (start stop : Nat) : Except Fault (List Char) :=
  match Text.slice? start stop source with
  | some text => .ok text
  | none => .error (.badSlice start stop)

/-- The character at an offset. A byte below 128 is one by itself; only others are decoded. -/
def charAt (source : List Char) (position : Nat) : Except Fault Char :=
  match (bytes source)[position]? with
  | none => .ok Cursor.sentinel
  | some byte =>
    if byte < 128 then
      .ok (Char.ofNat byte.toNat)
    else do
      let text ← slice source position (Text.byteLength source)
      return text.headD Cursor.sentinel

theorem length_bytes (source : List Char) : (bytes source).length = Text.byteLength source := by
  induction source with
  | nil => rfl
  | cons c cs ih =>
    rw [Text.byteLength_cons, ← ih, bytes, List.flatMap_cons, List.length_append,
      String.length_utf8EncodeChar]
    rfl

theorem byteLength_le (source : List Char) : Text.byteLength source ≤ 4 * source.length := by
  induction source with
  | nil => exact Nat.le_refl 0
  | cons c cs ih =>
    have := c.utf8Size_le_four
    rw [Text.byteLength_cons, List.length_cons]
    omega

theorem head?_utf8EncodeChar (c : Char) :
    ∃ byte, (String.utf8EncodeChar c).head? = some byte ∧
      (byte < 128 → Char.ofNat byte.toNat = c) := by
  unfold String.utf8EncodeChar
  dsimp only
  split
  · next hsmall =>
    refine ⟨_, rfl, fun _ => ?_⟩
    have hbyte : (UInt8.ofNat c.val.toNat).toNat = c.toNat := by
      rw [UInt8.toNat_ofNat']
      exact Nat.mod_eq_of_lt (by omega)
    rw [hbyte, Char.ofNat_toNat]
  · have hhigh {n : Nat} (hlow : 128 ≤ n) (hn : n < 256) : ¬ UInt8.ofNat n < 128 := by
      rw [UInt8.lt_iff_toNat_lt, UInt8.toNat_ofNat', Nat.mod_eq_of_lt hn]
      exact Nat.not_lt.mpr hlow
    split
    · exact ⟨_, rfl, fun h => absurd h (hhigh (by omega) (by omega))⟩
    · split
      · exact ⟨_, rfl, fun h => absurd h (hhigh (by omega) (by omega))⟩
      · exact ⟨_, rfl, fun h => absurd h (hhigh (by omega) (by omega))⟩

theorem byteLength_lt (hsize : source.length + 1 < counterLimit) :
    Text.byteLength source < sizeLimit := by
  have := byteLength_le source
  unfold counterLimit at hsize
  unfold sizeLimit
  omega

theorem slice_append (before middle after : List Char) :
    slice (before ++ (middle ++ after)) (Text.byteLength before)
      (Text.byteLength before + Text.byteLength middle) = .ok middle := by
  rw [slice, Text.slice?_append]

theorem charAt_byteLength (before after : List Char) :
    charAt (before ++ after) (Text.byteLength before) = .ok (after.headD Cursor.sentinel) := by
  have hfirst : (bytes (before ++ after))[Text.byteLength before]? = (bytes after).head? := by
    rw [bytes, List.flatMap_append, ← length_bytes before, bytes,
      List.getElem?_append_right (Nat.le_refl _), Nat.sub_self, List.head?_eq_getElem?, bytes]
  rw [charAt, hfirst]
  cases after with
  | nil => rfl
  | cons c cs =>
    obtain ⟨byte, hbyte, hascii⟩ := head?_utf8EncodeChar c
    have hhead : (bytes (c :: cs)).head? = some byte := by
      rw [bytes, List.flatMap_cons, List.head?_append, hbyte]
      rfl
    rw [hhead]
    dsimp only
    split
    · next hsmall => rw [hascii hsmall, List.headD_cons]
    · have htail := slice_append before (c :: cs) []
      rw [List.append_nil] at htail
      rw [Text.byteLength_append, htail]
      rfl

example : charAt ['é'] 1 = .error (.badSlice 1 2) := by rfl

-- ---------------------------------------------------------------------------
-- Cursors
-- ---------------------------------------------------------------------------

structure Cursor where
  source : List Char
  position : Nat
  /-- The character at the offset, or what stands for it at the end. -/
  ch : Char
  line : Nat
  column : Nat
deriving DecidableEq, Repr

namespace Cursor

def atEnd (c : Cursor) : Bool := Text.byteLength c.source ≤ c.position

def remaining (c : Cursor) : Nat := Text.byteLength c.source - c.position

def start (source : String) : Except Fault Cursor := do
  let ch ← charAt source.toList 0
  return ⟨source.toList, 0, ch, 1, 1⟩

def advance (c : Cursor) : Except Fault Cursor :=
  if c.atEnd then
    .ok c
  else do
    let position ← add sizeLimit c.position c.ch.utf8Size
    let line ← if c.ch = '\n' then add counterLimit c.line 1 else .ok c.line
    let column ← if c.ch = '\n' then .ok 1 else add counterLimit c.column 1
    let ch ← charAt c.source position
    return { c with position, line, column, ch }

def eatWhile (p : Char → Bool) (c : Cursor) : Except Fault Cursor :=
  if c.atEnd || !p c.ch then
    .ok c
  else
    match c.advance with
    | .error f => .error f
    | .ok after =>
      if _h : after.remaining < c.remaining then after.eatWhile p else .error .stuck
termination_by c.remaining

def sliceFrom (c : Cursor) (start : Nat) : Except Fault (List Char) :=
  slice c.source start c.position

def consumed (c : Cursor) : Except Fault (List Char) := slice c.source 0 c.position

def mark (c : Cursor) : Mark := ⟨c.position, c.line, c.column⟩

def spanFrom (c : Cursor) (m : Mark) : Span := ⟨m.offset, c.position, m.line, m.column⟩

def currentSpan (c : Cursor) : Except Fault Span := do
  let stop ← add sizeLimit c.position (if c.atEnd then 0 else c.ch.utf8Size)
  return ⟨c.position, stop, c.line, c.column⟩

end Cursor
-- ---------------------------------------------------------------------------
-- Machines that run out of words
-- ---------------------------------------------------------------------------

/-- The machine comes to what is expected. Only in a source that is too long for its counters, one
of them may overflow instead. -/
def Meets {α : Type} (source : List Char) (ran : Except Fault α) (expected : α) : Prop :=
  ran = .ok expected ∨ ran = .error .overflow ∧ counterLimit ≤ source.length + 1

namespace Meets

variable {α β : Type} {source : List Char} {ran : Except Fault α} {a : α}

theorem ok (a : α) : Meets source (.ok a) a := .inl rfl

theorem bind {f : α → Except Fault β} {b : β} (h : Meets source ran a)
    (hf : Meets source (f a) b) : Meets source (ran >>= f) b := by
  rcases h with rfl | ⟨rfl, hsize⟩
  · exact hf
  · exact .inr ⟨rfl, hsize⟩

theorem eq_ok (h : Meets source ran a) (hsize : source.length + 1 < counterLimit) :
    ran = .ok a :=
  h.resolve_right fun hover => Nat.not_le.mpr hsize hover.2

theorem eq_of_ok {b : α} (h : Meets source ran a) (hran : ran = .ok b) : b = a := by
  rcases h with rfl | ⟨rfl, -⟩
  · exact (Except.ok.inj hran).symm
  · contradiction

end Meets

theorem add_meets {source : List Char} (h : source.length + 1 < counterLimit → a + b < limit) :
    Meets source (add limit a b) (a + b) := by
  by_cases hfits : a + b < limit
  · rw [add_eq hfits]
    exact .ok _
  · exact .inr ⟨if_neg hfits, Nat.not_lt.mp fun hsize => hfits (h hsize)⟩

end Machine

-- ---------------------------------------------------------------------------
-- Images
-- ---------------------------------------------------------------------------

namespace Mark

theorem line_past_le (m : Mark) (text : List Char) : (m.past text).line ≤ m.line + text.length := by
  induction text generalizing m with
  | nil => exact Nat.le_refl _
  | cons c cs ih =>
    have hone : (m.after c).line ≤ m.line + 1 := by
      unfold after
      split
      · exact Nat.le_refl _
      · exact Nat.le_succ _
    have := ih (m.after c)
    rw [past_cons, List.length_cons]
    omega

theorem column_past_le (m : Mark) (hm : 1 ≤ m.column) (text : List Char) :
    (m.past text).column ≤ m.column + text.length := by
  induction text generalizing m with
  | nil => exact Nat.le_refl _
  | cons c cs ih =>
    have hone : 1 ≤ (m.after c).column ∧ (m.after c).column ≤ m.column + 1 := by
      unfold after
      split
      · exact ⟨Nat.le_refl 1, by dsimp only; omega⟩
      · exact ⟨Nat.le_add_left 1 _, Nat.le_refl _⟩
    have := ih (m.after c) hone.1
    rw [past_cons, List.length_cons]
    omega

end Mark

namespace Cursor

variable {c : Cursor} {source text rest : List Char} {ch : Char}

def image (source : List Char) (c : Cursor) : Machine.Cursor :=
  ⟨source, c.mark.offset, c.current, c.mark.line, c.mark.column⟩

theorem standsIn_advance (hs : c.StandsIn source) : c.advance.StandsIn source := by
  cases hr : c.rest with
  | nil => rwa [advance_of_end hr]
  | cons ch rest =>
    rw [advance_eq_pass hr]
    exact hs.pass hr

theorem standsIn_eatWhile (hs : c.StandsIn source) (p : Char → Bool) :
    (c.eatWhile p).StandsIn source := by
  rw [eatWhile_eq_pass]
  exact hs.pass List.takeWhile_append_dropWhile.symm

namespace StandsIn

theorem length_eq (hs : c.StandsIn source) : source.length = c.passed.length + c.rest.length := by
  rw [← hs.text_eq, List.length_append, List.length_reverse]

theorem line_le (hs : c.StandsIn source) : c.mark.line ≤ c.passed.length + 1 := by
  have := Mark.line_past_le Mark.origin c.passed.reverse
  rw [hs.mark_eq]
  simpa [Mark.origin, Nat.add_comm] using this

theorem column_le (hs : c.StandsIn source) : c.mark.column ≤ c.passed.length + 1 := by
  have := Mark.column_past_le Mark.origin (Nat.le_refl 1) c.passed.reverse
  rw [hs.mark_eq]
  simpa [Mark.origin, Nat.add_comm] using this

theorem byteLength_eq (hs : c.StandsIn source) :
    Text.byteLength source = c.mark.offset + Text.byteLength c.rest := by
  rw [← hs.text_eq, hs.offset_eq, Text.byteLength_append]

theorem remaining_image (hs : c.StandsIn source) :
    (c.image source).remaining = Text.byteLength c.rest := by
  rw [Machine.Cursor.remaining]
  simp [image, hs.byteLength_eq]

theorem remaining_image_lt {after : Cursor} (hs : c.StandsIn source)
    (hafter : after.StandsIn source) (h : after.rest.length < c.rest.length) :
    (after.image source).remaining < (c.image source).remaining := by
  have hends : after.rest <:+ source ∧ c.rest <:+ source :=
    ⟨⟨_, hafter.text_eq⟩, ⟨_, hs.text_eq⟩⟩
  obtain ⟨between, hbetween⟩ :=
    List.suffix_of_suffix_length_le hends.1 hends.2 (Nat.le_of_lt h)
  rw [hs.remaining_image, hafter.remaining_image, ← hbetween, Text.byteLength_append]
  cases between with
  | nil =>
    rw [← hbetween, List.nil_append] at h
    exact absurd h (Nat.lt_irrefl _)
  | cons ch chs =>
    have := ch.utf8Size_pos
    rw [Text.byteLength_cons]
    omega

theorem atEnd_image (hs : c.StandsIn source) : (c.image source).atEnd = c.atEnd := by
  have hbytes := hs.byteLength_eq
  cases hr : c.rest with
  | nil =>
    rw [hr, Text.byteLength_nil] at hbytes
    simp [Machine.Cursor.atEnd, image, atEnd, hr, hbytes]
  | cons ch rest =>
    have hpos := ch.utf8Size_pos
    rw [hr, Text.byteLength_cons] at hbytes
    have hbefore : ¬ Text.byteLength source ≤ c.mark.offset := by omega
    simp [Machine.Cursor.atEnd, image, atEnd, hr, hbefore]

theorem charAt_eq (hs : c.StandsIn source) :
    Machine.charAt source c.mark.offset = .ok c.current := by
  rw [← hs.text_eq, hs.offset_eq, Machine.charAt_byteLength]
  rfl

end StandsIn

theorem start_image (source : String) :
    Machine.Cursor.start source = .ok ((start source).image source.toList) := by
  have hch := (standsIn_start source).charAt_eq
  rw [Machine.Cursor.start, show Machine.charAt source.toList 0 = _ from hch]
  rfl

theorem advance_meets (hs : c.StandsIn source) :
    Machine.Meets source (c.image source).advance (c.advance.image source) := by
  cases hr : c.rest with
  | nil =>
    have hend : (c.image source).atEnd = true := by simp [hs.atEnd_image, atEnd, hr]
    rw [advance_of_end hr, Machine.Cursor.advance, if_pos hend]
    exact .ok _
  | cons ch rest =>
    have hend : ¬ (c.image source).atEnd = true := by simp [hs.atEnd_image, atEnd, hr]
    have hlength := hs.length_eq
    have hbytes := hs.byteLength_eq
    rw [hr, List.length_cons] at hlength
    rw [hr, Text.byteLength_cons] at hbytes
    have hcurrent : c.current = ch := by simp [current, hr]
    have hposition : Machine.Meets source (Machine.add Machine.sizeLimit c.mark.offset ch.utf8Size)
        (c.mark.offset + ch.utf8Size) := by
      refine Machine.add_meets fun hsize => ?_
      have := Machine.byteLength_lt hsize
      omega
    have hline : Machine.Meets source (Machine.add Machine.counterLimit c.mark.line 1)
        (c.mark.line + 1) := by
      have := hs.line_le
      exact Machine.add_meets fun hsize => by omega
    have hcolumn : Machine.Meets source (Machine.add Machine.counterLimit c.mark.column 1)
        (c.mark.column + 1) := by
      have := hs.column_le
      exact Machine.add_meets fun hsize => by omega
    have hafter : c.advance.mark = c.mark.after ch := by simp [advance, hr]
    have hch := (standsIn_advance hs).charAt_eq
    rw [hafter, Mark.offset_after] at hch
    rw [Machine.Cursor.advance, if_neg hend]
    simp only [image, hcurrent, hafter]
    refine hposition.bind ?_
    by_cases hbreak : ch = '\n'
    · subst hbreak
      rw [if_pos rfl]
      refine hline.bind ?_
      rw [if_pos rfl, hch]
      exact .ok _
    · rw [if_neg hbreak]
      refine Machine.Meets.bind (.ok c.mark.line) ?_
      rw [if_neg hbreak, hch, Mark.after, if_neg hbreak]
      exact hcolumn.bind (.ok _)

theorem eatWhile_meets (hs : c.StandsIn source) (p : Char → Bool) :
    Machine.Meets source ((c.image source).eatWhile p) ((c.eatWhile p).image source) := by
  fun_induction eatWhile p c with
  | case1 c hr =>
    have hend : (c.image source).atEnd = true := by simp [hs.atEnd_image, atEnd, hr]
    rw [Machine.Cursor.eatWhile, if_pos (by simp [hend])]
    exact .ok _
  | case2 c ch rest hr hp ih =>
    have hend : (c.image source).atEnd = false := by simp [hs.atEnd_image, atEnd, hr]
    have hch : (c.image source).ch = ch := by simp [image, current, hr]
    have hafter := standsIn_advance hs
    have hshorter := hs.remaining_image_lt hafter (advance_length_lt hr)
    rw [Machine.Cursor.eatWhile, if_neg (by simp [hend, hch, hp])]
    rcases advance_meets hs with hok | ⟨hover, hsize⟩
    · rw [hok]
      dsimp only
      rw [dif_pos hshorter]
      exact ih hafter
    · rw [hover]
      exact .inr ⟨rfl, hsize⟩
  | case3 c ch rest hr hp =>
    have hch : (c.image source).ch = ch := by simp [image, current, hr]
    rw [Machine.Cursor.eatWhile, if_pos (by simp [hch, hp])]
    exact .ok _

theorem advance_image (hs : c.StandsIn source) (hsize : source.length + 1 < Machine.counterLimit) :
    (c.image source).advance = .ok (c.advance.image source) :=
  (advance_meets hs).eq_ok hsize

theorem eatWhile_image (hs : c.StandsIn source)
    (hsize : source.length + 1 < Machine.counterLimit) (p : Char → Bool) :
    (c.image source).eatWhile p = .ok ((c.eatWhile p).image source) :=
  (eatWhile_meets hs p).eq_ok hsize

theorem sliceFrom_image (hs : c.StandsIn source) (hr : c.rest = text ++ rest) :
    ((c.pass text).image source).sliceFrom c.mark.offset = .ok text := by
  have hsource : source = c.passed.reverse ++ (text ++ rest) := by rw [← hr, hs.text_eq]
  have hslice := Machine.slice_append c.passed.reverse text rest
  rw [← hsource, ← hs.offset_eq] at hslice
  rw [Machine.Cursor.sliceFrom, image, mark_pass, Mark.offset_past]
  exact hslice

theorem consumed_image (hs : c.StandsIn source) :
    (c.image source).consumed = .ok c.passed.reverse := by
  have hslice := Machine.slice_append [] c.passed.reverse c.rest
  rw [List.nil_append, hs.text_eq, Text.byteLength_nil, Nat.zero_add, ← hs.offset_eq] at hslice
  exact hslice

theorem currentSpan_image (hs : c.StandsIn source)
    (hsize : source.length + 1 < Machine.counterLimit) :
    (c.image source).currentSpan = .ok c.currentSpan := by
  have hbytes := hs.byteLength_eq
  have hlimit := Machine.byteLength_lt hsize
  have hstop : Machine.add Machine.sizeLimit c.mark.offset
      (if (c.image source).atEnd then 0 else c.current.utf8Size) =
        .ok (c.mark.offset + (c.rest.head?.map Char.utf8Size).getD 0) := by
    cases hr : c.rest with
    | nil =>
      have hend : (c.image source).atEnd = true := by simp [hs.atEnd_image, atEnd, hr]
      rw [hend, if_pos rfl]
      exact Machine.add_eq (by omega)
    | cons ch rest =>
      have hend : (c.image source).atEnd = false := by simp [hs.atEnd_image, atEnd, hr]
      have hcurrent : c.current = ch := by simp [current, hr]
      rw [hr, Text.byteLength_cons] at hbytes
      rw [hend, hcurrent]
      exact Machine.add_eq (by simp; omega)
  have hposition : (c.image source).position = c.mark.offset := rfl
  have hch : (c.image source).ch = c.current := rfl
  rw [Machine.Cursor.currentSpan, hposition, hch, hstop]
  rfl

end Cursor
end ScriptLex
